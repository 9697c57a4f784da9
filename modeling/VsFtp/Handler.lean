import VsFtp.Commands

/-!
# The connection handling of `vsftp_server.c`
-/

namespace VsFtp

open CString Prog

/-- `WaitForIncomingConnection`. -/
def waitForIncomingConnection : ServerM Int := do
  let d ← getData
  let sock ← sysAccept .server d.serverSock
  modifyData fun d => { d with clientSock := sock }
  if 0 ≤ sock then do
    let retval ← serverSetCwd d.rootPath d.rootPathLen
    let retval ← onOk retval (serverSendReply (ascii "220 Service ready for new user."))
    onOk retval (do
      modifyData fun d => { d with isConnected := true }
      pure retval)
  else do
    let errno ← getErrno
    if errno = eagain then pure 0
    else do
      let _ ← serverStop
      pure 0

/-- `buffer[i] = b` in the request buffer. -/
def storeRequest (buffer : List Byte) (i : ℕ) (b : Byte) : ServerM (List Byte) := do
  emit (.index i)
  if i < requestLenMax then pure (overwrite buffer i [b])
  else do
    undefinedBehaviour
    pure buffer

/-- `strncmp(&buffer[bytes_read - 2], "\r\n", 2) == 0`. -/
def endsLine (buffer : List Byte) (bytesRead : ℕ) : ServerM Bool := do
  emit (.index (bytesRead - 2))
  emit (.index (bytesRead - 1))
  pure (strncmp (buffer.drop (bytesRead - 2)) crlf 2)

/-- What `HandleConnection` does with a line. -/
def handleLine (buffer : List Byte) (bytesRead : ℕ) : ServerM Int := do
  let buffer ← storeRequest buffer (bytesRead - 2) 0
  let bytesRead := bytesRead - 2
  let retval ← commandsParse buffer bytesRead
  emit (.result retval)
  if retval ≠ 0 then do
    let _ ← serverCloseTransferClientSocket
    let _ ← serverCloseTransferSocket
    pure 0
  else pure retval

/-- `HandleConnection`. -/
def handleConnection : ServerM Int := do
  let d ← getData
  let (retval, bytes) ← receiveOwnSock d.clientSock requestLenMax
  let bytesRead := bytes.length
  let buffer ← storeRequest bytes bytesRead 0
  let isLine ← (if retval = 0 ∧ bytesRead > 2 then endsLine buffer bytesRead else pure false)
  if isLine then handleLine buffer bytesRead
  else if retval = 0 ∧ bytesRead = 0 then do
    let _ ← serverClientDisconnect
    pure retval
  else do
    let errno ← getErrno
    if errno = eagain then pure retval
    else do
      let _ ← serverStop
      pure retval

/-- `VSFTPServerHandler`. -/
def serverHandler : ServerM Int := do
  let d ← getData
  if d.isServerSocketCreated = false then serverStart
  else if d.isConnected = false then waitForIncomingConnection
  else handleConnection

end VsFtp
