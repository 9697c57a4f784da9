import VsFtp.Lib.Prog
import VsFtp.Lib.Ledger
import VsFtp.Lib.CString
import VsFtp.Lib.Format
import VsFtp.Lib.Path

/-!
# The operating system the server runs on

The server is sequential code between calls of the operating system.  Every call
is answered by an `Os`, from the log of everything the server did before, so the
outcomes of the calls are arbitrary up to the few laws an `Os` carries: what
POSIX promises about the values a call may return at all.

## Main definitions

* `Event` — the records of the log: one for each call with its answer, and marks
  for the points of the program that statements refer to.
* `held`, `openFds` — the sockets the server holds, and all descriptors that are
  open, read off a log.
* `Syscalls`, `Os` — the answers, and the answers together with their laws.
* `Memory`, `Determined` — what is no answer of a call, and programs that do not depend on it.
* `sysSocket`, `sysAccept`, … — the calls as programs.
-/

namespace VsFtp

open CString

/-! ### `config.h` -/

/-- `HELP_LEN_MAX`. -/
abbrev helpLenMax : ℕ := 256

/-- `PATH_LEN_MAX`. -/
abbrev pathLenMax : ℕ := 256

/-- `REQUEST_LEN_MAX`. -/
abbrev requestLenMax : ℕ := 288

/-- `RESPONSE_LEN_MAX`. -/
abbrev responseLenMax : ℕ := 288

/-- `FILE_READ_BUF_SIZE`. -/
abbrev fileReadBufSize : ℕ := 8192

/-- `PASV_PORT_NUMBER`. -/
abbrev pasvPortNumber : UInt16 := 40000

/-- `INET_ADDRSTRLEN`. -/
abbrev inetAddrstrlen : ℕ := 16

/-- `EAGAIN`, which is also `EWOULDBLOCK`. -/
abbrev eagain : ℕ := 11

/-- `ENOTSUP`. -/
abbrev enotsup : Int := 95

/-! ### Values that pass between the server and the system -/

/-- The fields of the server's record that hold a socket. -/
inductive Slot
  | server
  | client
  | transfer
  | transferClient
  deriving DecidableEq, Repr

/-- Whether the caller of `shutdown` closes the socket only if it succeeds, or in
any case. -/
inductive Closing
  | checked
  | unchecked
  deriving DecidableEq, Repr

/-- `st_mode`, as far as `S_ISDIR` and `S_ISREG` look at it. -/
inductive FileKind
  | dir
  | regular
  | other
  deriving DecidableEq, Repr

/-- `struct stat`, with its 64-bit size. -/
structure Stat where
  kind : FileKind
  size : ℕ
  size_lt : size < 2 ^ 64
  deriving DecidableEq

/-- An entry of size zero. -/
def Stat.empty (kind : FileKind) : Stat := ⟨kind, 0, Nat.two_pow_pos 64⟩

/-- A directory stream: its identity and the names `readdir` has yet to yield
before it returns `NULL`. -/
structure Dir where
  id : ℕ
  entries : List (List Byte)
  deriving DecidableEq, Repr

/-- The commands of the table in `vsftp_commands.c`. -/
inductive Command
  | user
  | syst
  | pasv
  | nlst
  | pwd
  | cwd
  | retr
  | size
  | type
  | help
  | quit
  deriving DecidableEq, Repr

/-- The arguments a handler is called with: where they start in the request
buffer, the length that is passed, and the bytes. -/
structure Args where
  offset : ℕ
  len : ℕ
  bytes : List Byte
  deriving DecidableEq, Repr

/-! ### The log -/

/-- A record of the log. -/
inductive Event
  | socket (fd : Int)
  | fcntl (fd r : Int)
  | setsockopt (fd r : Int)
  | bind (fd : Int) (port : UInt16) (r : Int)
  | listen (fd r : Int)
  | accept (who : Slot) (fd r : Int)
  | shutdown (how : Closing) (fd r : Int)
  | close (fd r : Int)
  | read (fd : Int) (size : ℕ) (r : Option (List Byte))
  | write (who : Slot) (fd : Int) (bytes : List Byte) (r : Int)
  | realpath (path : List Byte) (r : Option (List Byte))
  | stat (path : List Byte) (r : Option Stat)
  | access (path : List Byte) (r : Int)
  | openFile (path : List Byte) (r : Int)
  | fstat (fd : Int) (r : Option Stat)
  | readFile (fd : Int) (size : ℕ) (r : Option (List Byte))
  | closeFile (fd r : Int)
  | opendir (path : List Byte) (r : Option Dir)
  | readdir (d : ℕ) (entry : Option (List Byte))
  | closedir (d : ℕ)
  /-- The request buffer is indexed. -/
  | index (i : ℕ)
  /-- A line is handed to `VSFTPCommandsParse`. -/
  | request (buffer : List Byte) (len : ℕ)
  /-- A handler is called. -/
  | dispatch (c : Command) (args : Option Args)
  /-- `VSFTPCommandsParse` has returned. -/
  | result (retval : Int)
  /-- `VSFTPServerClientDisconnect` is called. -/
  | disconnect
  /-- `VSFTPServerStop` is called. -/
  | stopped
  deriving DecidableEq

/-- The log, newest record first. -/
abbrev Log := List Event

/-- The socket a call has given to the server. -/
def Event.obtained : Event → List Int
  | .socket fd => if fd < 0 then [] else [fd]
  | .accept _ _ fd => if fd < 0 then [] else [fd]
  | _ => []

/-- The descriptor a call has opened. -/
def Event.opened : Event → List Int
  | .openFile _ fd => if fd < 0 then [] else [fd]
  | e => e.obtained

/-- The descriptor that was passed to `close`. -/
def Event.released : Event → List Int
  | .close fd _ => [fd]
  | .closeFile fd _ => [fd]
  | _ => []

/-- The sockets the server got from `socket` or `accept` and has not passed to
`close` since. -/
def held : Log → List Int := Ledger.live Event.obtained Event.released []

/-- The open descriptors of the process, which started with `inherited`. -/
def openFds (inherited : List Int) : Log → List Int :=
  Ledger.live Event.opened Event.released inherited

/-! ### The system -/

/-- The answers of the system to the calls of the server, each from the log at
the time of the call. -/
structure Syscalls where
  /-- The descriptors that are open before the server makes its first call. -/
  inherited : List Int
  socket : Log → Int
  /-- `fcntl(fd, F_SETFL, fcntl(fd, F_GETFL, 0))`. -/
  fcntl : Log → Int → Int
  setsockopt : Log → Int → Int
  bind : Log → Int → UInt16 → Int
  listen : Log → Int → Int
  accept : Log → Int → Int
  shutdown : Log → Int → Int
  close : Log → Int → Int
  /-- `read` on a socket: the bytes, or `none` for -1. -/
  read : Log → Int → ℕ → Option (List Byte)
  write : Log → Int → List Byte → Int
  /-- The value of `errno` when it is looked at. -/
  errno : Log → ℕ
  realpath : Log → List Byte → Option (List Byte)
  /-- `stat`: what it stores, or `none` for -1, when it may store nothing. -/
  stat : Log → List Byte → Option Stat
  access : Log → List Byte → Int
  openFile : Log → List Byte → Int
  fstat : Log → Int → Option Stat
  /-- `read` on a file. -/
  readFile : Log → Int → ℕ → Option (List Byte)
  closeFile : Log → Int → Int
  opendir : Log → List Byte → Option Dir
  /-- What an uninitialised `struct stat` on the stack happens to contain. -/
  leftover : Log → Stat
  /-- What lies in memory behind the bytes an array is known to contain. -/
  behind : Log → List Byte
  /-- What a conversion prints that was given no argument of its type. -/
  conversion : Log → List Byte
  /-- Whether the process survives a write outside an array, or such a
  conversion. -/
  survives : Log → Bool

/-- The answers together with what POSIX promises about them.  Descriptor 0 is in
use when the server makes its first call: it is the standard input, or else the
log file, which `FTPLOG` opens before any socket is made. -/
structure Os extends Syscalls where
  zero_inherited : (0 : Int) ∈ inherited
  socket_fresh : ∀ log, socket log = -1 ∨ 0 ≤ socket log ∧ socket log ∉ openFds inherited log
  accept_fresh : ∀ log fd,
    accept log fd = -1 ∨ 0 ≤ accept log fd ∧ accept log fd ∉ openFds inherited log
  openFile_fresh : ∀ log path,
    openFile log path = -1 ∨ 0 ≤ openFile log path ∧ openFile log path ∉ openFds inherited log
  read_length_le : ∀ {log fd n bytes}, read log fd n = some bytes → bytes.length ≤ n
  readFile_length_le : ∀ {log fd n bytes}, readFile log fd n = some bytes → bytes.length ≤ n
  write_le : ∀ log fd bytes, -1 ≤ write log fd bytes ∧ write log fd bytes ≤ bytes.length
  realpath_canonical : ∀ {log path r}, realpath log path = some r →
    Path.Canonical (47 : Byte) r ∧ NoNul r

/-- What uninitialised memory contains, and what becomes of undefined behaviour: the answers that no
call gives. -/
structure Memory where
  leftover : Log → Stat
  behind : Log → List Byte
  conversion : Log → List Byte
  survives : Log → Bool

/-- Memory without anything in it, and undefined behaviour without an effect. -/
def Memory.blank : Memory :=
  ⟨fun _ => .empty .other, fun _ => [], fun _ => [], fun _ => true⟩

/-- The system with these answers instead of its own. -/
def Os.holding (os : Os) (memory : Memory) : Os :=
  { os with leftover := memory.leftover, behind := memory.behind,
            conversion := memory.conversion, survives := memory.survives }

/-! ### The calls as programs -/

section Calls

variable {δ : Type}

/-- Programs that call the system. -/
abbrev SysM (δ α : Type) := Prog Os (Logged δ Event) α

/-- Run from `s`, the program reads no uninitialised memory and does nothing undefined: whatever
would come of that, it does the same. -/
def Determined {α : Type} (os : Os) (m : SysM δ α) (s : Logged δ Event) : Prop :=
  ∀ memory, m (os.holding memory) s = m os s

def sysSocket : SysM δ Int := Prog.call (·.socket) .socket

def sysFcntl (fd : Int) : SysM δ Int := Prog.call (·.fcntl · fd) (.fcntl fd)

def sysSetsockopt (fd : Int) : SysM δ Int := Prog.call (·.setsockopt · fd) (.setsockopt fd)

def sysBind (fd : Int) (port : UInt16) : SysM δ Int :=
  Prog.call (·.bind · fd port) (.bind fd port)

def sysListen (fd : Int) : SysM δ Int := Prog.call (·.listen · fd) (.listen fd)

def sysAccept (who : Slot) (fd : Int) : SysM δ Int := Prog.call (·.accept · fd) (.accept who fd)

def sysShutdown (how : Closing) (fd : Int) : SysM δ Int :=
  Prog.call (·.shutdown · fd) (.shutdown how fd)

def sysClose (fd : Int) : SysM δ Int := Prog.call (·.close · fd) (.close fd)

def sysRead (fd : Int) (size : ℕ) : SysM δ (Option (List Byte)) :=
  Prog.call (·.read · fd size) (.read fd size)

def sysWrite (who : Slot) (fd : Int) (bytes : List Byte) : SysM δ Int :=
  Prog.call (·.write · fd bytes) (.write who fd bytes)

def sysRealpath (path : List Byte) : SysM δ (Option (List Byte)) :=
  Prog.call (·.realpath · path) (.realpath path)

def sysStat (path : List Byte) : SysM δ (Option Stat) := Prog.call (·.stat · path) (.stat path)

def sysAccess (path : List Byte) : SysM δ Int := Prog.call (·.access · path) (.access path)

def sysOpen (path : List Byte) : SysM δ Int := Prog.call (·.openFile · path) (.openFile path)

def sysFstat (fd : Int) : SysM δ (Option Stat) := Prog.call (·.fstat · fd) (.fstat fd)

def sysReadFile (fd : Int) (size : ℕ) : SysM δ (Option (List Byte)) :=
  Prog.call (·.readFile · fd size) (.readFile fd size)

def sysCloseFile (fd : Int) : SysM δ Int := Prog.call (·.closeFile · fd) (.closeFile fd)

def sysOpendir (path : List Byte) : SysM δ (Option Dir) :=
  Prog.call (·.opendir · path) (.opendir path)

/-- `readdir`: the next name and the stream behind it. -/
def sysReaddir (d : Dir) : SysM δ (Option (List Byte) × Dir) := do
  Prog.emit (.readdir d.id d.entries.head?)
  pure (d.entries.head?, { d with entries := d.entries.tail })

def sysClosedir (d : Dir) : SysM δ Unit := Prog.emit (.closedir d.id)

/-- `errno`. -/
def getErrno : SysM δ ℕ := Prog.peek (·.errno ·)

/-- Undefined behaviour: the process may end here. -/
def undefinedBehaviour : SysM δ Unit := do
  let survives ← Prog.peek (·.survives ·)
  if survives then pure () else Prog.stop

/-- The C string at the start of an array, as a callee reads it: if the array has
no NUL, the reader runs on into the memory behind. -/
def readString (a : List Byte) : SysM δ (List Byte) := do
  let behind ← Prog.peek (·.behind ·)
  pure (cstr (a ++ behind))

/-- `n` bytes read from the start of an array. -/
def readBytes (a : List Byte) (n : ℕ) : SysM δ (List Byte) := do
  let behind ← Prog.peek (·.behind ·)
  pure ((List.range n).map ((a ++ behind).getD · 0))

/-- The output of `printf(format, arg)` where the format is data and the argument is of type
`size_t`.  A conversion that lacks an argument of its type is undefined behaviour. -/
def printFormat (format : List Byte) (arg : ℕ) : SysM δ (List Byte) :=
  match formatText format arg with
  | some out => pure out
  | none => do
      undefinedBehaviour
      Prog.peek (·.conversion ·)

end Calls

end VsFtp
