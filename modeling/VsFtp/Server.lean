import VsFtp.Filesystem

/-!
# `vsftp_server.c`, except for the connection handling

The record `serverData` and the functions on it, in the order of the source,
without those that call the command parser (`VsFtp.Handler`).

The character arrays of the record are only ever written by `strncpy` of a string
that fits, which pads them with NULs; they are kept as the strings they hold.
`ipAddr` is the exception: nothing checks that it fits, so it is kept as the array.
-/

namespace VsFtp

open CString Prog

/-- `vsftpServerData_s`, without the socket addresses, which only pass the ports
on to `bind`. -/
structure ServerData where
  port : UInt16
  rootPath : List Byte
  ipAddr : List Byte
  ipAddrLen : ℕ
  rootPathLen : ℕ
  cwd : List Byte
  cwdLen : ℕ
  serverSock : Int
  clientSock : Int
  transferSock : Int
  transferClientSock : Int
  transferModeBinary : Bool
  isConnected : Bool
  isServerSocketCreated : Bool
  deriving DecidableEq

/-- The record as the program is loaded: static, so all zero. -/
def ServerData.zero : ServerData where
  port := 0
  rootPath := []
  ipAddr := []
  ipAddrLen := 0
  rootPathLen := 0
  cwd := []
  cwdLen := 0
  serverSock := 0
  clientSock := 0
  transferSock := 0
  transferClientSock := 0
  transferModeBinary := false
  isConnected := false
  isServerSocketCreated := false

/-- The state of the server: its record and the log. -/
abbrev St := Logged ServerData Event

/-- The server's code. -/
abbrev ServerM (α : Type) := SysM ServerData α

/-- The socket in a field. -/
def ServerData.sock (d : ServerData) : Slot → Int
  | .server => d.serverSock
  | .client => d.clientSock
  | .transfer => d.transferSock
  | .transferClient => d.transferClientSock

/-- Set the socket in a field. -/
def ServerData.setSock (d : ServerData) (slot : Slot) (fd : Int) : ServerData :=
  match slot with
  | .server => { d with serverSock := fd }
  | .client => { d with clientSock := fd }
  | .transfer => { d with transferSock := fd }
  | .transferClient => { d with transferClientSock := fd }

/-- `"\r\n"`. -/
def crlf : List Byte := [13, 10]

/-! ### Sockets -/

/-- `CreatePassiveSocket`, storing the socket in the field `sock` points to.  A
socket that could not be set up is closed, but the field keeps its number. -/
def createPassiveSocket (portNum : UInt16) (sock : Slot) : ServerM Int := do
  let fd ← sysSocket
  modifyData (·.setSock sock fd)
  let retval : Int := if fd = -1 then -1 else 0
  let retval ← onOk retval (sysFcntl fd)
  let retval ← onOk retval (sysSetsockopt fd)
  let retval ← onOk retval (sysBind fd portNum)
  let retval ← onOk retval (sysListen fd)
  if retval = 0 then pure retval
  else do
    let _ ← sysShutdown .unchecked fd
    let _ ← sysClose fd
    pure retval

/-- `SendOwnSock`: the status and what is stored through `send`. -/
def sendOwnSock (who : Slot) (sock : Int) (buf : List Byte) (send : ℕ) : ServerM (Int × ℕ) := do
  let lsend ← sysWrite who sock buf
  if lsend ≠ -1 then pure (0, lsend.toNat) else pure (-1, send)

/-- `ReceiveOwnSock`: the status and the bytes stored in `buf`. -/
def receiveOwnSock (sock : Int) (size : ℕ) : ServerM (Int × List Byte) := do
  let bytesRead ← sysRead sock size
  match bytesRead with
  | some bytes => pure (0, bytes)
  | none => pure (-1, [])

/-- The common body of `CloseClientSocket`, `VSFTPServerCloseTransferSocket` and
`VSFTPServerCloseTransferClientSocket`: the socket is closed only if `shutdown`
succeeds, and the field is cleared in any case. -/
def closeSocket (slot : Slot) : ServerM Int := do
  let d ← getData
  let retval : Int := if d.sock slot ≠ -1 then 0 else -1
  let retval ← onOk retval (sysShutdown .checked (d.sock slot))
  let retval ← onOk retval (sysClose (d.sock slot))
  modifyData (·.setSock slot (-1))
  pure retval

/-- `CloseClientSocket`. -/
def closeClientSocket : ServerM Int := closeSocket .client

/-- `VSFTPServerCloseTransferSocket`. -/
def serverCloseTransferSocket : ServerM Int := closeSocket .transfer

/-- `VSFTPServerCloseTransferClientSocket`. -/
def serverCloseTransferClientSocket : ServerM Int := closeSocket .transferClient

/-- `VSFTPServerStop`. -/
def serverStop : ServerM Int := do
  emit .stopped
  let _ ← serverCloseTransferClientSocket
  let _ ← serverCloseTransferSocket
  let _ ← closeClientSocket
  let d ← getData
  let _ ← (
    if d.serverSock ≠ -1 then do
      let _ ← sysShutdown .unchecked d.serverSock
      let _ ← sysClose d.serverSock
      modifyData fun d => { d with serverSock := -1 }
    else pure ())
  modifyData fun d => { d with isServerSocketCreated := false, isConnected := false }
  pure 0

/-- `VSFTPServerClientDisconnect`. -/
def serverClientDisconnect : ServerM Int := do
  emit .disconnect
  let _ ← serverCloseTransferClientSocket
  let _ ← serverCloseTransferSocket
  let _ ← closeClientSocket
  modifyData fun d => { d with isConnected := false }
  pure 0

/-- `VSFTPServerCreateTransferSocket`. -/
def serverCreateTransferSocket (portNum : UInt16) : ServerM Int := do
  let d ← getData
  if d.transferSock = -1 then createPassiveSocket portNum .transfer else pure (-1)

/-- `VSFTPServerAcceptTransferClientConnection`. -/
def serverAcceptTransferClientConnection : ServerM Int := do
  let d ← getData
  if d.transferSock ≠ -1 then do
    let lsock ← sysAccept .transferClient d.transferSock
    if 0 ≤ lsock then do
      modifyData fun d => { d with transferClientSock := lsock }
      pure 0
    else pure (-1)
  else pure (-1)

/-! ### Sending a file -/

/-- The loop of `VSFTPServerSendfileTransfer`.  `fuel` bounds the iterations. -/
def sendfileLoop (fd : Int) : ℕ → ℕ → ℕ → Int → ServerM Int
  | fuel, count, numSent, retval =>
      if 0 < count then
        match fuel with
        | 0 => stop
        | fuel + 1 => do
            let toRead := if count < fileReadBufSize then count else fileReadBufSize
            let numRead ← sysReadFile fd toRead
            match numRead with
            | none => pure (-1)
            | some [] => pure retval
            | some (b :: fileBuf) => do
                let d ← getData
                let (retval, numSent) ←
                  sendOwnSock .transferClient d.transferClientSock (b :: fileBuf) numSent
                if retval = -1 then pure retval
                else if numSent = 0 then pure (-1)
                else sendfileLoop fd fuel (sizeSub count numSent) numSent retval
      else pure retval

/-- `VSFTPServerSendfileTransfer`. -/
def serverSendfileTransfer (pathTofile : List Byte) (len : ℕ) : ServerM Int := do
  let out ← filesystemOpenFile pathTofile len (-1) 0
  let retval ← onOk out.retval (sendfileLoop out.fd out.size out.size 0 out.retval)
  let _ ← filesystemCloseFile out.fd
  pure retval

/-! ### The transfer mode and the address -/

/-- `VSFTPServerSetTransferMode`. -/
def serverSetTransferMode (binary : Bool) : ServerM Int := do
  modifyData fun d => { d with transferModeBinary := binary }
  pure 0

/-- `VSFTPServerGetTransferMode`: the status and `*binary`. -/
def serverGetTransferMode : ServerM (Int × Bool) := do
  let d ← getData
  pure (0, d.transferModeBinary)

/-- `inet_pton(AF_INET, ..) == 1`: four decimal numbers of one to three digits, at
most 255 and without a leading zero, with dots between them. -/
def inetPton (s : List Byte) : Bool :=
  let parts := s.splitOn 46
  parts.length = 4 && parts.all fun part =>
    0 < part.length && part.length ≤ 3 && part.all (fun c => 48 ≤ c && c ≤ 57) &&
      part.foldl (fun n c => 10 * n + (c.toNat - 48)) 0 ≤ 255 &&
      (part.length = 1 || part.headD 0 ≠ 48)

/-- `VSFTPServerGetServerIP4`. -/
def serverGetServerIP4 (buf : List Byte) (size len : ℕ) : ServerM PathOut := do
  if size ≥ inetAddrstrlen then do
    let d ← getData
    let ipAddr ← readString d.ipAddr
    let buf := strncpy buf 0 ipAddr size
    pure ⟨0, buf, strnlen buf size⟩
  else pure ⟨-1, buf, len⟩

/-! ### Paths -/

/-- The test of `VSFTPServerAbsPathIsNotAboveRootPath`, on the record. -/
def absPathIsNotAboveRootPath (d : ServerData) (absPath : List Byte) (absPathLen : ℕ) : Int :=
  if 0 < absPathLen then
    if absPathLen < d.rootPathLen then -1
    else if (List.range d.rootPathLen).all
        fun i => d.rootPath.getD i 0 = absPath.getD i 0 then 0
    else -1
  else -1

/-- `VSFTPServerAbsPathIsNotAboveRootPath`. -/
def serverAbsPathIsNotAboveRootPath (absPath : List Byte) (absPathLen : ℕ) : ServerM Int := do
  let d ← getData
  pure (absPathIsNotAboveRootPath d absPath absPathLen)

/-- `VSFTPServerGetCwd`.  The directory is passed to `snprintf` as the format, and its length as the
only argument. -/
def serverGetCwd (buf : List Byte) (size len : ℕ) : ServerM PathOut := do
  let d ← getData
  if 0 < size ∧ 0 < d.cwdLen ∧ d.cwdLen < size then do
    let written ← printFormat d.cwd d.cwdLen
    let buf := snprintf buf 0 size written
    if written.length < size then pure ⟨0, buf, written.length⟩ else pure ⟨-1, buf, len⟩
  else pure ⟨-1, buf, len⟩

/-- The array `buf` of `VSFTPServerServerPathToRealPath`: the root path with an
absolute server path behind it, as far as they fit. -/
def absoluteBuf (d : ServerData) (serverPath : List Byte) : List Byte :=
  strncpy (strncpy [] 0 d.rootPath pathLenMax) d.rootPathLen serverPath
    (sizeSub pathLenMax d.rootPathLen)

/-- `VSFTPServerServerPathToRealPath`. -/
def serverServerPathToRealPath (serverPath : List Byte) (serverPathLen : ℕ)
    (realPath : List Byte) (size realPathLen : ℕ) : ServerM PathOut := do
  if 0 < serverPathLen ∧ 0 < size then
    if filesystemIsAbsPath serverPath = 0 then do
      let d ← getData
      let buf := absoluteBuf d serverPath
      let bufLen := strnlen buf pathLenMax
      let path ← readString buf
      filesystemGetRealPath none 0 path bufLen realPath size realPathLen
    else do
      let cwd ← serverGetCwd [] pathLenMax 0
      if cwd.retval = 0 then do
        let cwdString ← readString cwd.buf
        filesystemGetRealPath (some cwdString) cwd.len serverPath serverPathLen realPath size
          realPathLen
      else pure ⟨cwd.retval, realPath, realPathLen⟩
  else pure ⟨-1, realPath, realPathLen⟩

/-- `VSFTPServerRealPathToServerPath`.  The scan stops at the first byte that
differs from the root path, which is padded with NULs. -/
def serverRealPathToServerPath (realPath : List Byte) (realPathLen : ℕ)
    (serverPath : List Byte) (size serverPathLen : ℕ) : ServerM PathOut := do
  if 0 < realPathLen ∧ 0 < size then do
    let d ← getData
    let behind ← Prog.peek (·.behind ·)
    let memory := realPath ++ behind
    match (List.range realPathLen).find? fun i => memory.getD i 0 ≠ d.rootPath.getD i 0 with
    | none => pure ⟨0, overwrite serverPath 0 [47, 0], 1⟩
    | some i =>
        let serverPath := strncpy serverPath 0 (cstr (memory.drop i)) size
        pure ⟨0, serverPath, strnlen serverPath size⟩
  else pure ⟨-1, serverPath, serverPathLen⟩

/-- `VSFTPServerSetCwd`. -/
def serverSetCwd (dir : List Byte) (len : ℕ) : ServerM Int := do
  let cwd ← serverGetCwd [] pathLenMax 0
  let out ← (
    if cwd.retval = 0 then do
      let cwdString ← readString cwd.buf
      filesystemGetRealPath (some cwdString) cwd.len dir len [] pathLenMax 0
    else filesystemGetRealPath none 0 dir len [] pathLenMax 0)
  let realPath ← readString out.buf
  let retval ← onOk out.retval (filesystemIsDir realPath out.len)
  let retval ← onOk retval (serverAbsPathIsNotAboveRootPath out.buf out.len)
  onOk retval (
    if pathLenMax > out.len then do
      modifyData fun d => { d with cwd := realPath, cwdLen := out.len }
      pure 0
    else pure (-1))

/-! ### Replies -/

/-- `VSFTPServerSendReply` of the text that its format and arguments give. -/
def serverSendReply (text : List Byte) : ServerM Int :=
  if text.length ≥ responseLenMax then pure (-1)
  else if text.length + 2 ≥ responseLenMax then pure (-1)
  else do
    let d ← getData
    let r ← sysWrite .client d.clientSock (text ++ crlf)
    pure (if r = -1 then -1 else 0)

/-- The common body of `VSFTPServerSendReplyOwnBuf` and
`VSFTPServerSendReplyOwnBufTransfer`: the status and the buffer afterwards.  The
test behind `snprintf` sets a status that is already zero, so it decides nothing:
two more bytes than the text has are sent whether they were stored or not. -/
def sendReplyOwnBuf (who : Slot) (buf : List Byte) (size len : ℕ) :
    ServerM (Int × List Byte) := do
  if 0 < size ∧ 0 < len then do
    let buf := snprintf buf len (sizeSub size len) crlf
    let d ← getData
    let bytes ← readBytes buf (len + 2)
    let r ← sysWrite who (d.sock who) bytes
    pure (if r = -1 then -1 else 0, buf)
  else pure (-1, buf)

/-- `VSFTPServerSendReplyOwnBuf`. -/
def serverSendReplyOwnBuf (buf : List Byte) (size len : ℕ) : ServerM (Int × List Byte) :=
  sendReplyOwnBuf .client buf size len

/-- `VSFTPServerSendReplyOwnBufTransfer`. -/
def serverSendReplyOwnBufTransfer (buf : List Byte) (size len : ℕ) : ServerM (Int × List Byte) :=
  sendReplyOwnBuf .transferClient buf size len

/-! ### Starting -/

/-- `VSFTPServerInitialize`. -/
def serverInitialize (rootPath : List Byte) (rootPathLen : ℕ) (ipAddr : List Byte)
    (ipAddrLen : ℕ) (port : UInt16) : ServerM Int := do
  if 0 < rootPathLen ∧ 0 < ipAddrLen then do
    modifyData fun d =>
      { d with ipAddr := strncpy d.ipAddr 0 ipAddr inetAddrstrlen, ipAddrLen := ipAddrLen,
               port := port }
    let out ← filesystemGetRealPath none 0 rootPath rootPathLen [] pathLenMax 0
    if out.retval = 0 then do
      let realPath ← readString out.buf
      modifyData fun d => { d with rootPath := realPath, rootPathLen := out.len }
      filesystemIsDir realPath out.len
    else pure out.retval
  else pure (-1)

/-- `VSFTPServerStart`. -/
def serverStart : ServerM Int := do
  modifyData fun d => { d with transferSock := -1, serverSock := -1, clientSock := -1 }
  let d ← getData
  let retval ← serverSetCwd d.rootPath d.rootPathLen
  let retval ← onOk retval (do
    modifyData fun d => { d with transferModeBinary := true }
    let d ← getData
    createPassiveSocket d.port .server)
  onOk retval (do
    modifyData fun d => { d with isServerSocketCreated := true }
    pure retval)

end VsFtp
