import VsFtp.Server

/-!
# `vsftp_commands.c`

The eleven command handlers and the parser.  A handler gets the array its `args`
pointer points to, and a length; the array holds the NUL that ends the request.
-/

namespace VsFtp

open CString Prog

/-! ### Handlers without file access -/

/-- `CommandHandlerUser`. -/
def commandHandlerUser (args : List Byte) (len : ℕ) : ServerM Int := do
  let user := ascii "anonymous"
  let lLen := user.length
  if len = lLen ∧ strncmp user args lLen then
    serverSendReply (ascii "230 User logged in, proceed.")
  else do
    let retval ← serverSendReply (ascii "530 Login incorrect.")
    let _ ← serverClientDisconnect
    pure retval

/-- `CommandHandlerSyst`. -/
def commandHandlerSyst (_args : List Byte) (_len : ℕ) : ServerM Int :=
  serverSendReply (ascii "215 UNIX Type: L8")

/-- The text of the 227 reply: the address with commas for dots, and the two bytes
of the port. -/
def pasvReply (ipAddr : List Byte) (p1 p2 : UInt8) : List Byte :=
  ascii "227 Entering Passive Mode (" ++ ipAddr ++ ascii "," ++ decimal p1.toNat ++ ascii ","
    ++ decimal p2.toNat ++ ascii ")."

/-- `CommandHandlerPasv` once it has a transfer socket. -/
def pasvEntering (portNumber : UInt16) : ServerM Int := do
  let p1 := (portNumber >>> 8).toUInt8
  let p2 := (portNumber &&& 0xFF).toUInt8
  let out ← serverGetServerIP4 [] inetAddrstrlen 0
  if out.retval = 0 then do
    let ipAddrBuf :=
      (out.buf.take out.len).map (fun c => if c = 46 then 44 else c) ++ out.buf.drop out.len
    let ipAddr ← readString ipAddrBuf
    serverSendReply (pasvReply ipAddr p1 p2)
  else serverSendReply (ascii "425 Cannot open data connection.")

/-- `CommandHandlerPasv`. -/
def commandHandlerPasv (_args : List Byte) (_len : ℕ) : ServerM Int := do
  let portNumber := pasvPortNumber
  let _ ← serverCloseTransferClientSocket
  let _ ← serverCloseTransferSocket
  let retval ← serverCreateTransferSocket portNumber
  if retval = 0 then pasvEntering portNumber
  else serverSendReply (ascii "425 Cannot open data connection.")

/-- `CommandHandlerPwd`. -/
def commandHandlerPwd (_args : List Byte) (_len : ℕ) : ServerM Int := do
  let cwd ← serverGetCwd [] pathLenMax 0
  let out ← (
    if cwd.retval = 0 then serverRealPathToServerPath cwd.buf cwd.len [] pathLenMax 0
    else pure cwd)
  if out.retval = 0 then do
    let serverPath ← readString out.buf
    serverSendReply (ascii "257 \"" ++ serverPath ++ ascii "\"")
  else serverSendReply (ascii "550 Failed to get directory.")

/-- `CommandHandlerType`. -/
def commandHandlerType (args : List Byte) (len : ℕ) : ServerM Int := do
  if len = 1 ∧ (args.headD 0 = 73 ∨ args.headD 0 = 105) then do
    let retval ← serverSendReply (ascii "200 Switching to Binary mode.")
    onOk retval (serverSetTransferMode true)
  else if len = 1 ∧ (args.headD 0 = 65 ∨ args.headD 0 = 97) then do
    let retval ← serverSendReply (ascii "200 Switching to ASCII mode.")
    onOk retval (serverSetTransferMode false)
  else serverSendReply (ascii "504 Command not implemented for that parameter.")

/-- `CommandHandlerQuit`. -/
def commandHandlerQuit (_args : List Byte) (_len : ℕ) : ServerM Int :=
  serverSendReply (ascii "221 Bye.")

/-! ### Handlers with file access -/

/-- `CommandHandlerCwd`. -/
def commandHandlerCwd (args : List Byte) (len : ℕ) : ServerM Int := do
  let out ← (
    if 0 < len then do
      let path ← readString args
      serverServerPathToRealPath path len [] pathLenMax 0
    else pure ⟨-1, [], 0⟩)
  let retval ← onOk out.retval (do
    let realPath ← readString out.buf
    serverSetCwd realPath out.len)
  if retval = 0 then serverSendReply (ascii "250 Directory successfully changed.")
  else serverSendReply (ascii "550 Failed to change directory.")

/-- The local variables of `CommandHandlerNlst` that its loop uses. -/
structure Listing where
  buf : List Byte
  bufLen : ℕ
  serverPath : List Byte
  serverPathLen : ℕ
  d : Option Dir
  deriving DecidableEq

/-- The body of the loop of `CommandHandlerNlst`: the status and the variables. -/
def nlstBody (lpath : List Byte) (llen len : ℕ) (l : Listing) : ServerM (Int × Listing) := do
  let out ← filesystemListDirPerLine lpath llen l.buf pathLenMax l.bufLen (len ≠ 0) l.d
  let l := { l with buf := out.buf, bufLen := out.bufLen, d := out.cookie }
  if out.retval ≠ 0 then pure (out.retval, l)
  else if len ≠ 0 then do
    let path ← serverRealPathToServerPath l.buf pathLenMax l.serverPath pathLenMax l.serverPathLen
    let l := { l with serverPath := path.buf, serverPathLen := path.len }
    if path.retval = 0 then do
      let (retval, serverPath) ←
        serverSendReplyOwnBufTransfer l.serverPath pathLenMax l.serverPathLen
      pure (retval, { l with serverPath := serverPath })
    else pure (path.retval, l)
  else do
    let (retval, buf) ← serverSendReplyOwnBufTransfer l.buf pathLenMax l.bufLen
    pure (retval, { l with buf := buf })

/-- `while (d != NULL)`, around the body.  `fuel` bounds the iterations. -/
def nlstWhile (lpath : List Byte) (llen len : ℕ) : ℕ → Listing → ServerM Int
  | fuel, l =>
      if l.d = none then pure 0
      else
        match fuel with
        | 0 => stop
        | fuel + 1 => do
            let (retval, l) ← nlstBody lpath llen len l
            if retval ≠ 0 then pure retval else nlstWhile lpath llen len fuel l

/-- The loop of `CommandHandlerNlst`: the body once, and again while there is a
stream.  Every further iteration takes a name out of the stream or ends it. -/
def nlstLoop (lpath : List Byte) (llen len : ℕ) : ServerM Int := do
  let (retval, l) ← nlstBody lpath llen len ⟨[], 0, [], 0, none⟩
  if retval ≠ 0 then pure retval
  else nlstWhile lpath llen len ((l.d.map (·.entries.length)).getD 0 + 1) l

/-- The directory `CommandHandlerNlst` lists: the requested one if it is inside
the root path, and without an argument the current one. -/
def nlstPath (args : List Byte) (len : ℕ) : ServerM PathOut := do
  let cwd ← serverGetCwd [] pathLenMax 0
  if cwd.retval = 0 then
    if len ≠ 0 then do
      let path ← readString args
      let out ← serverServerPathToRealPath path len [] pathLenMax 0
      let retval ← onOk out.retval (do
        let realPath ← readString out.buf
        filesystemIsDir realPath out.len)
      let retval ← onOk retval (serverAbsPathIsNotAboveRootPath out.buf out.len)
      pure ⟨retval, out.buf, out.len⟩
    else pure cwd
  else pure cwd

/-- `CommandHandlerNlst`. -/
def commandHandlerNlst (args : List Byte) (len : ℕ) : ServerM Int := do
  let out ← nlstPath args len
  let lpath ← readString out.buf
  let retval ← onOk out.retval serverAcceptTransferClientConnection
  let retval ← onOk retval (serverSendReply (ascii "150 Here comes the directory listing."))
  let retval ← onOk retval (nlstLoop lpath out.len len)
  let _ ← serverCloseTransferClientSocket
  let _ ← serverCloseTransferSocket
  if retval = 0 then serverSendReply (ascii "226 Directory send OK.")
  else serverSendReply (ascii "550 Permission Denied.")

/-- The reply before a transfer, in the mode that is set. -/
def retrReply (isBinary : Bool) (args : List Byte) : List Byte :=
  (if isBinary then ascii "150 BINARY mode data connection for "
    else ascii "150 ASCII mode data connection for ") ++ args ++ ascii "."

/-- The reply of `CommandHandlerRetr` and `CommandHandlerSize` when it is not the
file that failed. -/
def localError : List Byte := ascii "451 Requested action aborted: Local error in processing."

/-- How `CommandHandlerRetr` and `CommandHandlerSize` find their file: the path and
whether it was the file that failed. -/
def filePath (args : List Byte) (len : ℕ) : ServerM (PathOut × Bool) := do
  if 0 < len then do
    let path ← readString args
    let out ← serverServerPathToRealPath path len [] pathLenMax 0
    if out.retval ≠ 0 then pure (out, true)
    else do
      let realPath ← readString out.buf
      let retval ← filesystemIsFile realPath out.len
      pure (⟨retval, realPath, out.len⟩, decide (retval ≠ 0))
  else pure (⟨-1, [], 0⟩, false)

/-- `CommandHandlerRetr`. -/
def commandHandlerRetr (args : List Byte) (len : ℕ) : ServerM Int := do
  let (out, isFileError) ← filePath args len
  let retval ← onOk out.retval serverAcceptTransferClientConnection
  let retval ← onOk retval (do
    let (_, isBinary) ← serverGetTransferMode
    let path ← readString args
    serverSendReply (retrReply isBinary path))
  let retval ← onOk retval (serverSendfileTransfer out.buf out.len)
  let _ ← serverCloseTransferClientSocket
  let _ ← serverCloseTransferSocket
  if retval = 0 then serverSendReply (ascii "226 Transfer Complete.")
  else serverSendReply (if isFileError then ascii "551 File not found." else localError)

/-- `CommandHandlerSize`. -/
def commandHandlerSize (args : List Byte) (len : ℕ) : ServerM Int := do
  let (out, isFileError) ← filePath args len
  if out.retval = 0 then do
    let filestats ← sysStat out.buf
    match filestats with
    | some st => serverSendReply (ascii "213 " ++ decimal st.size)
    | none => serverSendReply localError
  else serverSendReply (if isFileError then ascii "550 File not found." else localError)

/-! ### The table and the parser -/

/-- The table `commands`. -/
def commands : List (List Byte × Command) :=
  [(ascii "USER", .user), (ascii "SYST", .syst), (ascii "PASV", .pasv), (ascii "NLST", .nlst),
   (ascii "PWD", .pwd), (ascii "CWD", .cwd), (ascii "RETR", .retr), (ascii "SIZE", .size),
   (ascii "TYPE", .type), (ascii "HELP", .help), (ascii "QUIT", .quit)]

/-- Append to a text that must stay shorter than the buffer of
`CommandHandlerHelp`. -/
def helpAppend (buf : Option (List Byte)) (text : List Byte) : Option (List Byte) :=
  buf.bind fun buf => if (buf ++ text).length < helpLenMax then some (buf ++ text) else none

/-- The text `CommandHandlerHelp` builds, if it fits. -/
def helpText : Option (List Byte) :=
  let head := helpAppend (some []) (ascii "214-The following commands are recognized." ++ crlf)
  let names := commands.foldl (fun buf c => helpAppend buf (ascii " " ++ c.1)) head
  helpAppend names (crlf ++ ascii "214 Help OK.")

/-- `CommandHandlerHelp`. -/
def commandHandlerHelp (_args : List Byte) (_len : ℕ) : ServerM Int :=
  match helpText with
  | some buf => do
      let (retval, _) ← serverSendReplyOwnBuf (buf ++ [0]) helpLenMax buf.length
      pure retval
  | none => pure (-1)

/-- The handler of a command. -/
def commandHandle : Command → List Byte → ℕ → ServerM Int
  | .user => commandHandlerUser
  | .syst => commandHandlerSyst
  | .pasv => commandHandlerPasv
  | .nlst => commandHandlerNlst
  | .pwd => commandHandlerPwd
  | .cwd => commandHandlerCwd
  | .retr => commandHandlerRetr
  | .size => commandHandlerSize
  | .type => commandHandlerType
  | .help => commandHandlerHelp
  | .quit => commandHandlerQuit

/-- The entry of the table whose name the buffer starts with. -/
def commandFind (buffer : List Byte) : Option (List Byte × Command) :=
  commands.find? fun c => strncmp buffer c.1 c.1.length

/-- `VSFTPCommandsParse`. -/
def commandsParse (buffer : List Byte) (len : ℕ) : ServerM Int := do
  emit (.request buffer len)
  match commandFind buffer with
  | some (name, c) =>
      if len > name.length then do
        let args := buffer.drop (name.length + 1)
        let argsLen := sizeSub (sizeSub len name.length) 1
        emit (.dispatch c (some ⟨name.length + 1, argsLen, args.take argsLen⟩))
        commandHandle c args argsLen
      else do
        emit (.dispatch c none)
        commandHandle c [] 0
  | none => do
      let _ ← serverSendReply (ascii "502 Command not implemented.")
      pure enotsup

end VsFtp
