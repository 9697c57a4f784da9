import VsFtp.Lib.Modular
import VsFtp.Main
import VsFtp.Transfers

/-!
# What the functions are put together from

Most functions look at the record and at the file system and do nothing else.  The handlers also
reply, open and close data connections, and set the working directory and the transfer mode.  A
property that sequencing keeps holds of a function if it holds of these parts.

## Main definitions

* `Plain` — the calls that look at something.
* `Covers` — a property that sequencing keeps and that these calls have.
* `Handles`, `Transmits` — one that the parts of the handlers and of the transfers have as well.
* `Acts` — the calls that deal with sockets, the marks and the changes of the record.
* `Pervades` — a property that sequencing keeps and that all calls have.

## Main results

* `Covers.filePath`, `Covers.serverSetCwd`, … — **the path functions.**
* `Transmits.nlstLoop`, `Transmits.serverSendfileTransfer` — the transfers.
* `Handles.commandHandlerCwd`, … — **the handlers.**
* `Pervades.commandHandle`, `Pervades.serverHandler` — **the handlers and the turns**, for a
  property that all calls have.
-/

namespace VsFtp

open CString Prog

attribute [local irreducible] serverSendReply helpText

/-! ### Looking -/

/-- The calls that look at the record, at memory or at the file system, and the end of the
process. -/
inductive Plain : (α : Type) → ServerM α → Prop
  | getData : Plain _ getData
  | stop {α : Type} : Plain α stop
  | behind : Plain _ (peek (·.behind ·))
  | survives : Plain _ (peek (·.survives ·))
  | conversion : Plain _ (peek (·.conversion ·))
  | errno : Plain _ (peek (·.errno ·))
  | realpath (path : List Byte) : Plain _ (sysRealpath path)
  | stat (path : List Byte) : Plain _ (sysStat path)
  | access (path : List Byte) : Plain _ (sysAccess path)
  | openFile (path : List Byte) : Plain _ (sysOpen path)
  | fstat (fd : Int) : Plain _ (sysFstat fd)
  | closeFile (fd : Int) : Plain _ (sysCloseFile fd)
  | opendir (path : List Byte) : Plain _ (sysOpendir path)
  | readdir (d : ℕ) (entry : Option (List Byte)) : Plain _ (emit (.readdir d entry))
  | closedir (d : ℕ) : Plain _ (emit (.closedir d))

/-- The sockets of the server, and what it knows of them. -/
def ServerData.sockets (d : ServerData) : (Int × Int × Int × Int) × Bool × Bool :=
  ((d.serverSock, d.clientSock, d.transferSock, d.transferClientSock),
    d.isConnected, d.isServerSocketCreated)

/-- A property that sequencing keeps and that these calls have, the type tests, and the changes of
the record that leave the sockets alone. -/
structure Covers (P : (α : Type) → ServerM α → Prop) : Prop extends Modular P where
  plain : ∀ {α : Type} {m : ServerM α}, Plain α m → P α m
  hasKind : ∀ kind path len, P _ (filesystemHasKind kind path len)
  store : ∀ {f : ServerData → ServerData}, (∀ d, (f d).sockets = d.sockets) → P _ (modifyData f)

/-- **A type test**, for a property that does not mind what is left in memory. -/
theorem modular_filesystemHasKind {P : (α : Type) → ServerM α → Prop} (hP : Modular P)
    (hleftover : P _ (peek (·.leftover ·))) (hstat : ∀ path, P _ (sysStat path)) {kind : FileKind}
    {path : List Byte} {len : ℕ} : P _ (filesystemHasKind kind path len) := by
  apply hP.ite _ (hP.pure _)
  apply hP.bind hleftover
  intro leftover
  apply hP.bind (hstat path)
  intro st
  exact hP.pure _

namespace Covers

variable {P : (α : Type) → ServerM α → Prop} (hP : Covers P)

include hP

theorem undefinedBehaviour : P _ undefinedBehaviour := by
  apply hP.bind (hP.plain .survives)
  intro survives
  exact hP.ite (hP.pure _) (hP.plain .stop)

theorem readString {a : List Byte} : P _ (readString a) := by
  apply hP.bind (hP.plain .behind)
  intro behind
  exact hP.pure _

theorem readBytes {a : List Byte} {n : ℕ} : P _ (readBytes a n) := by
  apply hP.bind (hP.plain .behind)
  intro behind
  exact hP.pure _

theorem printFormat {format : List Byte} {arg : ℕ} : P _ (printFormat format arg) := by
  unfold VsFtp.printFormat
  split
  · exact hP.pure _
  · apply hP.bind hP.undefinedBehaviour
    intro _
    exact hP.plain .conversion

/-! ### The file system -/

theorem filesystemGetRealPath {cwd : Option (List Byte)} {path realPath : List Byte}
    {cwdLen pathLen size realPathLen : ℕ} :
    P _ (filesystemGetRealPath cwd cwdLen path pathLen realPath size realPathLen) := by
  unfold VsFtp.filesystemGetRealPath
  apply hP.ite _ (hP.pure _)
  cases realPathTarget cwd cwdLen path pathLen with
  | none => exact hP.pure _
  | some lpath =>
    apply hP.bind (hP.plain (.realpath lpath))
    intro p
    cases p with
    | none => exact hP.pure _
    | some p => exact hP.ite (hP.pure _) (hP.pure _)

theorem filesystemListDirPerLine {path buf : List Byte} {pathLen size bufLen : ℕ}
    {prependDir : Bool} {cookie : Option Dir} :
    P _ (filesystemListDirPerLine path pathLen buf size bufLen prependDir cookie) := by
  have hread : ∀ d : Dir, P _ (sysReaddir d) := by
    intro d
    apply hP.bind (hP.plain (.readdir _ _))
    intro _
    exact hP.pure _
  apply hP.ite _ (hP.pure _)
  apply hP.bind
  · cases cookie with
    | none => exact hP.plain (.opendir path)
    | some d => exact hP.pure _
  intro d
  cases d with
  | none => exact hP.pure _
  | some d =>
    apply hP.bind (hread d)
    rintro ⟨ldir, d⟩
    cases ldir with
    | none =>
      apply hP.bind (hP.plain (.closedir _))
      intro _
      exact hP.pure _
    | some name =>
      apply hP.ite (hP.pure _)
      apply hP.bind (hP.plain (.closedir _))
      intro _
      exact hP.pure _

theorem filesystemOpenFile {path : List Byte} {len size : ℕ} {fd : Int} :
    P _ (filesystemOpenFile path len fd size) := by
  apply hP.ite _ (hP.pure _)
  apply hP.bind (hP.plain (.access path))
  intro retval
  apply hP.ite _ (hP.pure _)
  apply hP.bind (hP.plain (.openFile path))
  intro fd
  apply hP.ite (hP.pure _)
  apply hP.bind (hP.plain (.fstat fd))
  intro statBuf
  cases statBuf with
  | none => exact hP.pure _
  | some st => exact hP.pure _

/-! ### Paths -/

theorem serverGetCwd {buf : List Byte} {size len : ℕ} : P _ (serverGetCwd buf size len) := by
  apply hP.bind (hP.plain .getData)
  intro d
  apply hP.ite _ (hP.pure _)
  apply hP.bind hP.printFormat
  intro written
  exact hP.ite (hP.pure _) (hP.pure _)

theorem serverAbsPathIsNotAboveRootPath {absPath : List Byte} {len : ℕ} :
    P _ (serverAbsPathIsNotAboveRootPath absPath len) := by
  apply hP.bind (hP.plain .getData)
  intro d
  exact hP.pure _

theorem serverGetServerIP4 {buf : List Byte} {size len : ℕ} :
    P _ (serverGetServerIP4 buf size len) := by
  apply hP.ite _ (hP.pure _)
  apply hP.bind (hP.plain .getData)
  intro d
  apply hP.bind hP.readString
  intro ipAddr
  exact hP.pure _

theorem serverServerPathToRealPath {path realPath : List Byte} {len size realPathLen : ℕ} :
    P _ (serverServerPathToRealPath path len realPath size realPathLen) := by
  apply hP.ite _ (hP.pure _)
  apply hP.ite
  · apply hP.bind (hP.plain .getData)
    intro d
    apply hP.bind hP.readString
    intro path
    exact hP.filesystemGetRealPath
  · apply hP.bind hP.serverGetCwd
    intro cwd
    apply hP.ite _ (hP.pure _)
    apply hP.bind hP.readString
    intro cwdString
    exact hP.filesystemGetRealPath

theorem serverRealPathToServerPath {realPath serverPath : List Byte}
    {realPathLen size serverPathLen : ℕ} :
    P _ (serverRealPathToServerPath realPath realPathLen serverPath size serverPathLen) := by
  apply hP.ite _ (hP.pure _)
  apply hP.bind (hP.plain .getData)
  intro d
  apply hP.bind (hP.plain .behind)
  intro behind
  dsimp only
  split
  · exact hP.pure _
  · exact hP.pure _

/-- The file of `RETR` and `SIZE`. -/
theorem filePath {args : List Byte} {len : ℕ} : P _ (filePath args len) := by
  apply hP.ite _ (hP.pure _)
  apply hP.bind hP.readString
  intro path
  apply hP.bind hP.serverServerPathToRealPath
  intro out
  apply hP.ite (hP.pure _)
  apply hP.bind hP.readString
  intro realPath
  apply hP.bind (hP.hasKind _ _ _)
  intro retval
  exact hP.pure _

/-- The directory of `NLST`. -/
theorem nlstPath {args : List Byte} {len : ℕ} : P _ (nlstPath args len) := by
  apply hP.bind hP.serverGetCwd
  intro cwd
  apply hP.ite _ (hP.pure _)
  apply hP.ite _ (hP.pure _)
  apply hP.bind hP.readString
  intro path
  apply hP.bind hP.serverServerPathToRealPath
  intro out
  apply hP.bind
  · apply hP.onOk
    apply hP.bind hP.readString
    intro realPath
    exact hP.hasKind _ _ _
  intro retval
  apply hP.bind (hP.onOk hP.serverAbsPathIsNotAboveRootPath)
  intro retval
  exact hP.pure _

theorem serverSetCwd {dir : List Byte} {len : ℕ} : P _ (serverSetCwd dir len) := by
  apply hP.bind hP.serverGetCwd
  intro cwd
  apply hP.bind
  · apply hP.ite _ hP.filesystemGetRealPath
    apply hP.bind hP.readString
    intro cwdString
    exact hP.filesystemGetRealPath
  intro out
  apply hP.bind hP.readString
  intro realPath
  apply hP.bind (hP.onOk (hP.hasKind _ _ _))
  intro retval
  apply hP.bind (hP.onOk hP.serverAbsPathIsNotAboveRootPath)
  intro retval
  apply hP.onOk
  apply hP.ite _ (hP.pure _)
  apply hP.bind (hP.store (by intros; rfl))
  intro _
  exact hP.pure _

theorem serverSetTransferMode {binary : Bool} : P _ (serverSetTransferMode binary) := by
  apply hP.bind (hP.store (by intros; rfl))
  intro _
  exact hP.pure _

theorem serverInitialize {rootPath ipAddr : List Byte} {rootPathLen ipAddrLen : ℕ} {port : UInt16} :
    P _ (serverInitialize rootPath rootPathLen ipAddr ipAddrLen port) := by
  apply hP.ite _ (hP.pure _)
  apply hP.bind (hP.store (by intros; rfl))
  intro _
  apply hP.bind hP.filesystemGetRealPath
  intro out
  apply hP.ite _ (hP.pure _)
  apply hP.bind hP.readString
  intro realPath
  apply hP.bind (hP.store (by intros; rfl))
  intro _
  exact hP.hasKind _ _ _

/-- `main` up to its loop. -/
theorem mainStart (argv : Argv) : P _ (mainStart argv) := by
  apply hP.ite (hP.pure _)
  apply hP.ite (hP.pure _)
  apply hP.bind (hP.hasKind _ _ _)
  intro retval
  exact hP.ite (hP.pure _) hP.serverInitialize

end Covers

/-! ### Transfers -/

/-- A property that the parts of a transfer have as well. -/
structure Transmits (P : (α : Type) → ServerM α → Prop) : Prop extends Covers P where
  /-- A line of a listing. -/
  line : ∀ buf size len, P _ (serverSendReplyOwnBufTransfer buf size len)
  /-- The content of a file. -/
  file : ∀ fd fuel count numSent retval, P _ (sendfileLoop fd fuel count numSent retval)

namespace Transmits

variable {P : (α : Type) → ServerM α → Prop} (hP : Transmits P)

include hP

theorem nlstBody {lpath : List Byte} {llen len : ℕ} {l : Listing} :
    P _ (nlstBody lpath llen len l) := by
  apply hP.bind hP.filesystemListDirPerLine
  intro out
  apply hP.ite (hP.pure _)
  apply hP.ite
  · apply hP.bind hP.serverRealPathToServerPath
    intro path
    apply hP.ite _ (hP.pure _)
    apply hP.bind (hP.line _ _ _)
    intro out
    exact hP.pure _
  · apply hP.bind (hP.line _ _ _)
    intro out
    exact hP.pure _

/-- The loop of `NLST`, by induction on its iterations. -/
theorem nlstWhile {lpath : List Byte} {llen len fuel : ℕ} {l : Listing} :
    P _ (nlstWhile lpath llen len fuel l) := by
  induction fuel generalizing l with
  | zero =>
    unfold VsFtp.nlstWhile
    exact hP.ite (hP.pure _) (hP.plain .stop)
  | succ fuel ih =>
    unfold VsFtp.nlstWhile
    apply hP.ite (hP.pure _)
    apply hP.bind hP.nlstBody
    intro out
    exact hP.ite (hP.pure _) ih

theorem nlstLoop {lpath : List Byte} {llen len : ℕ} : P _ (nlstLoop lpath llen len) := by
  apply hP.bind hP.nlstBody
  intro out
  exact hP.ite (hP.pure _) hP.nlstWhile

theorem serverSendfileTransfer {path : List Byte} {len : ℕ} :
    P _ (serverSendfileTransfer path len) := by
  apply hP.bind hP.filesystemOpenFile
  intro out
  apply hP.bind (hP.onOk (hP.file _ _ _ _ _))
  intro retval
  apply hP.bind (hP.plain (.closeFile _))
  intro _
  exact hP.pure _

end Transmits

/-- **Sending a file**, for a property that reading and writing have, by induction on the rounds. -/
theorem modular_sendfileLoop {P : (α : Type) → ServerM α → Prop} (hP : Modular P)
    (hplain : ∀ {α : Type} {m : ServerM α}, Plain α m → P α m)
    (hread : ∀ fd size, P _ (sysReadFile fd size))
    (hwrite : ∀ who fd bytes, P _ (sysWrite who fd bytes)) {fd : Int} {fuel count numSent : ℕ}
    {retval : Int} : P _ (sendfileLoop fd fuel count numSent retval) := by
  induction fuel generalizing count numSent retval with
  | zero =>
    unfold sendfileLoop
    exact hP.ite (hplain .stop) (hP.pure _)
  | succ fuel ih =>
    unfold sendfileLoop
    apply hP.ite _ (hP.pure _)
    apply hP.bind (hread fd _)
    intro numRead
    cases numRead with
    | none => exact hP.pure _
    | some fileBuf =>
      cases fileBuf with
      | nil => exact hP.pure _
      | cons b fileBuf =>
        apply hP.bind (hplain .getData)
        intro d
        apply hP.bind
        · apply hP.bind (hwrite _ _ _)
          intro lsend
          exact hP.ite (hP.pure _) (hP.pure _)
        rintro ⟨retval, numSent⟩
        exact hP.ite (hP.pure _) (hP.ite (hP.pure _) ih)

/-! ### Handlers -/

/-- A property that the parts of the handlers have as well. -/
structure Handles (P : (α : Type) → ServerM α → Prop) : Prop extends Covers P where
  reply : ∀ text, P _ (serverSendReply text)
  help : ∀ buf size len, P _ (serverSendReplyOwnBuf buf size len)
  closeConnection : P _ serverCloseTransferClientSocket
  closeSocket : P _ serverCloseTransferSocket
  create : ∀ port, P _ (createPassiveSocket port .transfer)

namespace Handles

variable {P : (α : Type) → ServerM α → Prop} (hP : Handles P) (args : List Byte) (len : ℕ)

include hP

theorem commandHandlerPasv : P _ (commandHandlerPasv args len) := by
  apply hP.bind hP.closeConnection
  intro _
  apply hP.bind hP.closeSocket
  intro _
  apply hP.bind
  · apply hP.bind (hP.plain .getData)
    intro d
    exact hP.ite (hP.create _) (hP.pure _)
  intro retval
  apply hP.ite _ (hP.reply _)
  apply hP.bind hP.serverGetServerIP4
  intro out
  apply hP.ite _ (hP.reply _)
  apply hP.bind hP.readString
  intro ipAddr
  exact hP.reply _

theorem commandHandlerPwd : P _ (commandHandlerPwd args len) := by
  apply hP.bind hP.serverGetCwd
  intro cwd
  apply hP.bind (hP.ite hP.serverRealPathToServerPath (hP.pure _))
  intro out
  apply hP.ite _ (hP.reply _)
  apply hP.bind hP.readString
  intro serverPath
  exact hP.reply _

theorem commandHandlerType : P _ (commandHandlerType args len) := by
  apply hP.ite
  · apply hP.bind (hP.reply _)
    intro retval
    exact hP.onOk hP.serverSetTransferMode
  apply hP.ite _ (hP.reply _)
  apply hP.bind (hP.reply _)
  intro retval
  exact hP.onOk hP.serverSetTransferMode

theorem commandHandlerHelp : P _ (commandHandlerHelp args len) := by
  unfold VsFtp.commandHandlerHelp
  split
  · apply hP.bind (hP.help _ _ _)
    intro out
    exact hP.pure _
  · exact hP.pure _

theorem commandHandlerCwd : P _ (commandHandlerCwd args len) := by
  apply hP.bind
  · apply hP.ite _ (hP.pure _)
    apply hP.bind hP.readString
    intro path
    exact hP.serverServerPathToRealPath
  intro out
  apply hP.bind
  · apply hP.onOk
    apply hP.bind hP.readString
    intro realPath
    exact hP.serverSetCwd
  intro retval
  exact hP.ite (hP.reply _) (hP.reply _)

theorem commandHandlerSize : P _ (commandHandlerSize args len) := by
  apply hP.bind hP.filePath
  rintro ⟨out, isFileError⟩
  apply hP.ite _ (hP.reply _)
  apply hP.bind (hP.plain (.stat _))
  intro filestats
  cases filestats with
  | none => exact hP.reply _
  | some st => exact hP.reply _

/-- The connections of a transfer are closed, and it is answered. -/
theorem conclude {reply : ServerM Int} (hr : P _ reply) : P _ (do
    let _ ← serverCloseTransferClientSocket
    let _ ← serverCloseTransferSocket
    reply) := by
  apply hP.bind hP.closeConnection
  intro _
  apply hP.bind hP.closeSocket
  intro _
  exact hr

theorem commandHandlerNlst (ht : Transmits P) (ha : P _ serverAcceptTransferClientConnection) :
    P _ (commandHandlerNlst args len) := by
  apply hP.bind hP.nlstPath
  intro out
  apply hP.bind hP.readString
  intro lpath
  apply hP.bind (hP.onOk ha)
  intro retval
  apply hP.bind (hP.onOk (hP.reply _))
  intro retval
  apply hP.bind (hP.onOk ht.nlstLoop)
  intro retval
  exact hP.conclude (hP.ite (hP.reply _) (hP.reply _))

theorem commandHandlerRetr (ht : Transmits P) (ha : P _ serverAcceptTransferClientConnection) :
    P _ (commandHandlerRetr args len) := by
  apply hP.bind hP.filePath
  rintro ⟨out, isFileError⟩
  apply hP.bind (hP.onOk ha)
  intro retval
  apply hP.bind
  · apply hP.onOk
    apply hP.bind
    · apply hP.bind (hP.plain .getData)
      intro d
      exact hP.pure _
    intro isBinary
    apply hP.bind hP.readString
    intro path
    exact hP.reply _
  intro retval
  apply hP.bind (hP.onOk ht.serverSendfileTransfer)
  intro retval
  exact hP.conclude (hP.ite (hP.reply _) (hP.reply _))

/-- **The handlers.** -/
theorem commandHandle (ht : Transmits P) (ha : P _ serverAcceptTransferClientConnection)
    (hd : P _ serverClientDisconnect) (c : Command) : P _ (commandHandle c args len) := by
  cases c with
  | user =>
    apply hP.ite (hP.reply _)
    apply hP.bind (hP.reply _)
    intro retval
    apply hP.bind hd
    intro _
    exact hP.pure _
  | syst => exact hP.reply _
  | pasv => exact hP.commandHandlerPasv args len
  | nlst => exact hP.commandHandlerNlst args len ht ha
  | pwd => exact hP.commandHandlerPwd args len
  | cwd => exact hP.commandHandlerCwd args len
  | retr => exact hP.commandHandlerRetr args len ht ha
  | size => exact hP.commandHandlerSize args len
  | type => exact hP.commandHandlerType args len
  | help => exact hP.commandHandlerHelp args len
  | quit => exact hP.reply _

end Handles

/-! ### Turns -/

/-- The calls that deal with sockets, the marks and the changes of the record. -/
inductive Acts : (α : Type) → ServerM α → Prop
  | modifyData (f : ServerData → ServerData) : Acts _ (modifyData f)
  | emit (e : Event) : Acts _ (emit e)
  | socket : Acts _ sysSocket
  | fcntl (fd : Int) : Acts _ (sysFcntl fd)
  | setsockopt (fd : Int) : Acts _ (sysSetsockopt fd)
  | bind (fd : Int) (port : UInt16) : Acts _ (sysBind fd port)
  | listen (fd : Int) : Acts _ (sysListen fd)
  | accept (who : Slot) (fd : Int) : Acts _ (sysAccept who fd)
  | shutdown (how : Closing) (fd : Int) : Acts _ (sysShutdown how fd)
  | close (fd : Int) : Acts _ (sysClose fd)
  | read (fd : Int) (size : ℕ) : Acts _ (sysRead fd size)
  | write (who : Slot) (fd : Int) (bytes : List Byte) : Acts _ (sysWrite who fd bytes)

/-- A property that sequencing keeps and that all calls have, and sending a file. -/
structure Pervades (P : (α : Type) → ServerM α → Prop) : Prop extends Modular P where
  plain : ∀ {α : Type} {m : ServerM α}, Plain α m → P α m
  hasKind : ∀ kind path len, P _ (filesystemHasKind kind path len)
  acts : ∀ {α : Type} {m : ServerM α}, Acts α m → P α m
  file : ∀ fd fuel count numSent retval, P _ (sendfileLoop fd fuel count numSent retval)

namespace Pervades

variable {P : (α : Type) → ServerM α → Prop} (hP : Pervades P)

include hP

theorem covers : Covers P where
  toModular := hP.toModular
  plain h := hP.plain h
  hasKind := hP.hasKind
  store _ := hP.acts (.modifyData _)

/-! ### Sockets and replies -/

theorem closeSocket {slot : Slot} : P _ (closeSocket slot) := by
  apply hP.bind (hP.plain .getData)
  intro d
  apply hP.bind (hP.onOk (hP.acts (.shutdown _ _)))
  intro retval
  apply hP.bind (hP.onOk (hP.acts (.close _)))
  intro retval
  apply hP.bind (hP.acts (.modifyData _))
  intro _
  exact hP.pure _

theorem createPassiveSocket {port : UInt16} {slot : Slot} :
    P _ (createPassiveSocket port slot) := by
  apply hP.bind (hP.acts .socket)
  intro fd
  apply hP.bind (hP.acts (.modifyData _))
  intro _
  apply hP.bind (hP.onOk (hP.acts (.fcntl fd)))
  intro retval
  apply hP.bind (hP.onOk (hP.acts (.setsockopt fd)))
  intro retval
  apply hP.bind (hP.onOk (hP.acts (.bind fd port)))
  intro retval
  apply hP.bind (hP.onOk (hP.acts (.listen fd)))
  intro retval
  apply hP.ite (hP.pure _)
  apply hP.bind (hP.acts (.shutdown _ fd))
  intro _
  apply hP.bind (hP.acts (.close fd))
  intro _
  exact hP.pure _

theorem sendReplyOwnBuf {who : Slot} {buf : List Byte} {size len : ℕ} :
    P _ (sendReplyOwnBuf who buf size len) := by
  apply hP.ite _ (hP.pure _)
  apply hP.bind (hP.plain .getData)
  intro d
  apply hP.bind hP.covers.readBytes
  intro bytes
  apply hP.bind (hP.acts (.write _ _ _))
  intro r
  exact hP.pure _

theorem serverSendReply {text : List Byte} : P _ (serverSendReply text) := by
  unfold VsFtp.serverSendReply
  apply hP.ite (hP.pure _)
  apply hP.ite (hP.pure _)
  apply hP.bind (hP.plain .getData)
  intro d
  apply hP.bind (hP.acts (.write _ _ _))
  intro r
  exact hP.pure _

theorem serverAccept : P _ serverAcceptTransferClientConnection := by
  apply hP.bind (hP.plain .getData)
  intro d
  apply hP.ite _ (hP.pure _)
  apply hP.bind (hP.acts (.accept _ _))
  intro lsock
  apply hP.ite _ (hP.pure _)
  apply hP.bind (hP.acts (.modifyData _))
  intro _
  exact hP.pure _

theorem transmits : Transmits P where
  toCovers := hP.covers
  line _ _ _ := hP.sendReplyOwnBuf
  file := hP.file

theorem handles : Handles P where
  toCovers := hP.covers
  reply _ := hP.serverSendReply
  help _ _ _ := hP.sendReplyOwnBuf
  closeConnection := hP.closeSocket
  closeSocket := hP.closeSocket
  create _ := hP.createPassiveSocket

/-! ### The end of a session -/

theorem serverClientDisconnect : P _ serverClientDisconnect := by
  apply hP.bind (hP.acts (.emit _))
  intro _
  apply hP.bind hP.closeSocket
  intro _
  apply hP.bind hP.closeSocket
  intro _
  apply hP.bind hP.closeSocket
  intro _
  apply hP.bind (hP.acts (.modifyData _))
  intro _
  exact hP.pure _

theorem serverStop : P _ serverStop := by
  apply hP.bind (hP.acts (.emit _))
  intro _
  apply hP.bind hP.closeSocket
  intro _
  apply hP.bind hP.closeSocket
  intro _
  apply hP.bind hP.closeSocket
  intro _
  apply hP.bind (hP.plain .getData)
  intro d
  apply hP.bind
  · apply hP.ite _ (hP.pure _)
    apply hP.bind (hP.acts (.shutdown _ _))
    intro _
    apply hP.bind (hP.acts (.close _))
    intro _
    exact hP.acts (.modifyData _)
  intro _
  apply hP.bind (hP.acts (.modifyData _))
  intro _
  exact hP.pure _

/-! ### Lines -/

theorem commandHandle (c : Command) (args : List Byte) (len : ℕ) :
    P _ (commandHandle c args len) :=
  hP.handles.commandHandle args len hP.transmits hP.serverAccept hP.serverClientDisconnect c

theorem commandsParse {buffer : List Byte} {len : ℕ} : P _ (commandsParse buffer len) := by
  have hcall : ∀ (c : Command) (call : Option Args) (args : List Byte) (n : ℕ),
      P _ (emit (.dispatch c call) >>= fun _ => VsFtp.commandHandle c args n) := by
    intro c call args n
    apply hP.bind (hP.acts (.emit _))
    intro _
    exact hP.commandHandle c args n
  apply hP.bind (hP.acts (.emit _))
  intro _
  cases commandFind buffer with
  | none =>
    apply hP.bind hP.serverSendReply
    intro _
    exact hP.pure _
  | some found => exact hP.ite (hcall _ _ _ _) (hcall _ _ _ _)

theorem storeRequest {buffer : List Byte} {i : ℕ} {b : Byte} :
    P _ (storeRequest buffer i b) := by
  apply hP.bind (hP.acts (.emit _))
  intro _
  apply hP.ite (hP.pure _)
  apply hP.bind hP.covers.undefinedBehaviour
  intro _
  exact hP.pure _

theorem endsLine {buffer : List Byte} {bytesRead : ℕ} : P _ (endsLine buffer bytesRead) := by
  apply hP.bind (hP.acts (.emit _))
  intro _
  apply hP.bind (hP.acts (.emit _))
  intro _
  exact hP.pure _

theorem handleLine {buffer : List Byte} {bytesRead : ℕ} : P _ (handleLine buffer bytesRead) := by
  apply hP.bind hP.storeRequest
  intro buffer
  apply hP.bind hP.commandsParse
  intro retval
  apply hP.bind (hP.acts (.emit _))
  intro _
  apply hP.ite _ (hP.pure _)
  apply hP.bind hP.closeSocket
  intro _
  apply hP.bind hP.closeSocket
  intro _
  exact hP.pure _

theorem handleConnection : P _ handleConnection := by
  apply hP.bind (hP.plain .getData)
  intro d
  apply hP.bind
  · apply hP.bind (hP.acts (.read _ _))
    intro bytesRead
    cases bytesRead with
    | none => exact hP.pure _
    | some bytes => exact hP.pure _
  rintro ⟨retval, bytes⟩
  apply hP.bind hP.storeRequest
  intro buffer
  apply hP.bind (hP.ite hP.endsLine (hP.pure _))
  intro isLine
  apply hP.ite hP.handleLine
  apply hP.ite
  · apply hP.bind hP.serverClientDisconnect
    intro _
    exact hP.pure _
  apply hP.bind (hP.plain .errno)
  intro errno
  apply hP.ite (hP.pure _)
  apply hP.bind hP.serverStop
  intro _
  exact hP.pure _

/-! ### Starting and waiting -/

theorem serverStart : P _ serverStart := by
  apply hP.bind (hP.acts (.modifyData _))
  intro _
  apply hP.bind (hP.plain .getData)
  intro d
  apply hP.bind hP.covers.serverSetCwd
  intro retval
  apply hP.bind
  · apply hP.onOk
    apply hP.bind (hP.acts (.modifyData _))
    intro _
    apply hP.bind (hP.plain .getData)
    intro d
    exact hP.createPassiveSocket
  intro retval
  apply hP.onOk
  apply hP.bind (hP.acts (.modifyData _))
  intro _
  exact hP.pure _

theorem waitForIncomingConnection : P _ waitForIncomingConnection := by
  apply hP.bind (hP.plain .getData)
  intro d
  apply hP.bind (hP.acts (.accept _ _))
  intro sock
  apply hP.bind (hP.acts (.modifyData _))
  intro _
  apply hP.ite
  · apply hP.bind hP.covers.serverSetCwd
    intro retval
    apply hP.bind (hP.onOk hP.serverSendReply)
    intro retval
    apply hP.onOk
    apply hP.bind (hP.acts (.modifyData _))
    intro _
    exact hP.pure _
  apply hP.bind (hP.plain .errno)
  intro errno
  apply hP.ite (hP.pure _)
  apply hP.bind hP.serverStop
  intro _
  exact hP.pure _

/-- **A turn.** -/
theorem serverHandler : P _ serverHandler := by
  apply hP.bind (hP.plain .getData)
  intro d
  apply hP.ite hP.serverStart
  exact hP.ite hP.waitForIncomingConnection hP.handleConnection

end Pervades

end VsFtp
