import VsFtp.Lib.Relate
import VsFtp.Outcomes

/-!
# Two runs of the server

Two servers that have been started alike are run side by side, each from the state some history
has left it in, and their systems answer their calls alike from there on.  What the histories may
have left different is the working directory, the transfer mode and the descriptor of the last
data connection.  Everything the server does keeps the rest equal; what it does with these three
is looked at one by one.

## Main definitions

* `SameAnswers`, `SameOutcomes` — the two systems answer alike.
* `Agree`, `SameWorlds` — they also have the same in memory.
* `Continues` — two logs that continue the histories alike.
* `Shared`, `Twins` — what the two servers share.
* `Kept` — a program that does the same on both sides.

## Main results

* `kept_serverSendReply`, `kept_filePath`, … — the functions of the server are such programs, as
  long as what they read is shared.
* `rwp_closeTransferClient`, `rwp_serverAccept` — after these the data connection is shared.
* `rwp_serverSetCwd` — after this the working directory is shared.
-/

namespace VsFtp

open CString Prog

variable {os1 os2 : Os} {b1 b2 s1 s2 : St} {α : Type}

/-! ### The answers of the systems -/

/-- Two systems answer every call alike after the logs `l1` and `l2`. -/
structure SameAnswers (os1 os2 : Os) (l1 l2 : Log) : Prop where
  socket : os1.socket l1 = os2.socket l2
  fcntl : os1.fcntl l1 = os2.fcntl l2
  setsockopt : os1.setsockopt l1 = os2.setsockopt l2
  bind : os1.bind l1 = os2.bind l2
  listen : os1.listen l1 = os2.listen l2
  accept : os1.accept l1 = os2.accept l2
  shutdown : os1.shutdown l1 = os2.shutdown l2
  close : os1.close l1 = os2.close l2
  read : os1.read l1 = os2.read l2
  write : os1.write l1 = os2.write l2
  errno : os1.errno l1 = os2.errno l2
  realpath : os1.realpath l1 = os2.realpath l2
  stat : os1.stat l1 = os2.stat l2
  access : os1.access l1 = os2.access l2
  openFile : os1.openFile l1 = os2.openFile l2
  fstat : os1.fstat l1 = os2.fstat l2
  readFile : os1.readFile l1 = os2.readFile l2
  closeFile : os1.closeFile l1 = os2.closeFile l2
  opendir : os1.opendir l1 = os2.opendir l2

/-- The systems are alike in what is no answer of a call as well. -/
structure Agree (os1 os2 : Os) (l1 l2 : Log) : Prop extends SameAnswers os1 os2 l1 l2 where
  leftover : os1.leftover l1 = os2.leftover l2
  behind : os1.behind l1 = os2.behind l2
  conversion : os1.conversion l1 = os2.conversion l2
  survives : os1.survives l1 = os2.survives l2

/-- What is in memory is no answer of a call. -/
theorem SameAnswers.holding {l1 l2 : Log} (h : SameAnswers os1 os2 l1 l2) (memory : Memory) :
    SameAnswers (os1.holding memory) (os2.holding memory) l1 l2 :=
  ⟨h.socket, h.fcntl, h.setsockopt, h.bind, h.listen, h.accept, h.shutdown, h.close, h.read,
    h.write, h.errno, h.realpath, h.stat, h.access, h.openFile, h.fstat, h.readFile, h.closeFile,
    h.opendir⟩

/-- Two logs continue those of `b1` and `b2` alike: with the same records, except that each may
have closed the descriptor of the data connection it was left with. -/
inductive Continues (b1 b2 : St) : Log → Log → Prop
  | same (N : List Event) : Continues b1 b2 (N ++ b1.log) (N ++ b2.log)
  | closed (N M : List Event) {X1 X2 : List Event} (h1 : Closes b1.data.transferClientSock X1)
      (h2 : Closes b2.data.transferClientSock X2) :
      Continues b1 b2 (N ++ (X1 ++ (M ++ b1.log))) (N ++ (X2 ++ (M ++ b2.log)))

theorem Continues.push {l1 l2 : Log} (h : Continues b1 b2 l1 l2) (e : Event) :
    Continues b1 b2 (e :: l1) (e :: l2) := by
  cases h with
  | same N => exact .same (e :: N)
  | closed N M h1 h2 => exact .closed (e :: N) M h1 h2

/-- From `b1` and `b2` on all calls have the same outcomes. -/
def SameOutcomes (os1 os2 : Os) (b1 b2 : St) : Prop :=
  ∀ l1 l2, Continues b1 b2 l1 l2 → SameAnswers os1 os2 l1 l2

/-- From `b1` and `b2` on the systems agree. -/
def SameWorlds (os1 os2 : Os) (b1 b2 : St) : Prop :=
  ∀ l1 l2, Continues b1 b2 l1 l2 → Agree os1 os2 l1 l2

/-- Systems that answer alike agree once there is nothing in their memory. -/
theorem SameOutcomes.holding (h : SameOutcomes os1 os2 b1 b2) :
    SameWorlds (os1.holding .blank) (os2.holding .blank) b1 b2 :=
  fun l1 l2 hl => ⟨(h l1 l2 hl).holding .blank, rfl, rfl, rfl, rfl⟩

/-! ### What the servers share -/

/-- The record without what an earlier client may have left in it. -/
def ServerData.core (d : ServerData) : ServerData :=
  { d with cwd := [], cwdLen := 0, transferModeBinary := false, transferClientSock := -1 }

/-- Which of these are known to be shared. -/
structure Shared where
  cwd : Bool
  mode : Bool
  client : Bool

/-- What the servers share once the descriptor of the data connection is set. -/
def Shared.connecting (k : Shared) : Shared := { k with client := true }

/-- What the servers share once the working directory is set. -/
def Shared.entering (k : Shared) : Shared := { k with cwd := true }

/-- Two servers that continue the histories of `b1` and `b2` alike. -/
structure Twins (b1 b2 : St) (k : Shared) (s1 s2 : St) : Prop where
  core : s1.data.core = s2.data.core
  cwd : k.cwd = true → s1.data.cwd = s2.data.cwd ∧ s1.data.cwdLen = s2.data.cwdLen
  mode : k.mode = true → s1.data.transferModeBinary = s2.data.transferModeBinary
  /-- The descriptor of the data connection is shared, or still the one that was left behind. -/
  client : s1.data.transferClientSock = s2.data.transferClientSock ∧
      Continues b1 b2 s1.log s2.log ∨
    k.client = false ∧ s1.data.transferClientSock = b1.data.transferClientSock ∧
      s2.data.transferClientSock = b2.data.transferClientSock ∧
      ∃ N, s1.log = N ++ b1.log ∧ s2.log = N ++ b2.log

/-- The logs of two servers that end here. -/
abbrev Ends (b1 b2 s1 s2 : St) : Prop := Continues b1 b2 s1.log s2.log

namespace Twins

variable {k k' : Shared}

theorem ends (h : Twins b1 b2 k s1 s2) : Ends b1 b2 s1 s2 := by
  rcases h.client with ⟨-, h⟩ | ⟨-, -, -, N, h1, h2⟩
  · exact h
  · rw [Ends, h1, h2]
    exact .same N

theorem transferClientSock (h : Twins b1 b2 k s1 s2) (hk : k.client = true) :
    s1.data.transferClientSock = s2.data.transferClientSock := by
  rcases h.client with ⟨h, -⟩ | ⟨hno, -⟩
  · exact h
  · exact absurd (hk.symm.trans hno) (by decide)

theorem serverSock (h : Twins b1 b2 k s1 s2) : s1.data.serverSock = s2.data.serverSock :=
  congrArg (·.serverSock) h.core

theorem clientSock (h : Twins b1 b2 k s1 s2) : s1.data.clientSock = s2.data.clientSock :=
  congrArg (·.clientSock) h.core

theorem transferSock (h : Twins b1 b2 k s1 s2) : s1.data.transferSock = s2.data.transferSock :=
  congrArg (·.transferSock) h.core

theorem rootPath (h : Twins b1 b2 k s1 s2) : s1.data.rootPath = s2.data.rootPath :=
  congrArg (·.rootPath) h.core

theorem rootPathLen (h : Twins b1 b2 k s1 s2) : s1.data.rootPathLen = s2.data.rootPathLen :=
  congrArg (·.rootPathLen) h.core

theorem port (h : Twins b1 b2 k s1 s2) : s1.data.port = s2.data.port :=
  congrArg (·.port) h.core

theorem ipAddr (h : Twins b1 b2 k s1 s2) : s1.data.ipAddr = s2.data.ipAddr :=
  congrArg (·.ipAddr) h.core

theorem isConnected (h : Twins b1 b2 k s1 s2) : s1.data.isConnected = s2.data.isConnected :=
  congrArg (·.isConnected) h.core

theorem isServerSocketCreated (h : Twins b1 b2 k s1 s2) :
    s1.data.isServerSocketCreated = s2.data.isServerSocketCreated :=
  congrArg (·.isServerSocketCreated) h.core

theorem sock (h : Twins b1 b2 k s1 s2) {slot : Slot}
    (hslot : slot = .transferClient → k.client = true) : s1.data.sock slot = s2.data.sock slot := by
  cases slot with
  | server => exact h.serverSock
  | client => exact h.clientSock
  | transfer => exact h.transferSock
  | transferClient => exact h.transferClientSock (hslot rfl)

/-- What is shared may be forgotten. -/
theorem mono (h : Twins b1 b2 k s1 s2) (hcwd : k'.cwd = true → k.cwd = true)
    (hmode : k'.mode = true → k.mode = true) (hclient : k'.client = true → k.client = true) :
    Twins b1 b2 k' s1 s2 := by
  refine ⟨h.core, fun hk => h.cwd (hcwd hk), fun hk => h.mode (hmode hk), ?_⟩
  rcases h.client with h | ⟨hno, h⟩
  · exact Or.inl h
  · refine Or.inr ⟨?_, h⟩
    by_contra hk
    exact absurd (hno.symm.trans (hclient (by simpa using hk))) (by decide)

theorem of_connecting (h : Twins b1 b2 k.connecting s1 s2) : Twins b1 b2 k s1 s2 :=
  h.mono id id fun _ => rfl

theorem push (h : Twins b1 b2 k s1 s2) (e : Event) :
    Twins b1 b2 k { s1 with log := e :: s1.log } { s2 with log := e :: s2.log } := by
  refine ⟨h.core, h.cwd, h.mode, h.client.imp (fun h => ⟨h.1, h.2.push e⟩) ?_⟩
  rintro ⟨hno, h1, h2, N, hN1, hN2⟩
  exact ⟨hno, h1, h2, e :: N, by rw [hN1]; rfl, by rw [hN2]; rfl⟩

end Twins

/-- A change of the record that has nothing to do with what an earlier client may have left. -/
structure Uniform (f : ServerData → ServerData) : Prop where
  core : ∀ d, (f d).core = f d.core
  cwd : ∀ d, (f d).cwd = d.cwd ∧ (f d).cwdLen = d.cwdLen
  mode : ∀ d, (f d).transferModeBinary = d.transferModeBinary
  client : ∀ d, (f d).transferClientSock = d.transferClientSock

theorem Twins.update {k : Shared} (h : Twins b1 b2 k s1 s2) {f : ServerData → ServerData}
    (hf : Uniform f) :
    Twins b1 b2 k { s1 with data := f s1.data } { s2 with data := f s2.data } := by
  refine ⟨?_, fun hk => ?_, fun hk => ?_, ?_⟩
  · rw [hf.core, hf.core, h.core]
  · rw [(hf.cwd _).1, (hf.cwd _).2, (hf.cwd _).1, (hf.cwd _).2]
    exact h.cwd hk
  · rw [hf.mode, hf.mode]
    exact h.mode hk
  · rw [hf.client, hf.client]
    exact h.client

/-- Setting the descriptor of the data connection. -/
theorem Twins.setClient {k k' : Shared} (h : Twins b1 b2 k s1 s2) (x : Int)
    (hcwd : k'.cwd = true → k.cwd = true) (hmode : k'.mode = true → k.mode = true) :
    Twins b1 b2 k' { s1 with data := s1.data.setSock .transferClient x }
      { s2 with data := s2.data.setSock .transferClient x } :=
  ⟨h.core, fun hk => h.cwd (hcwd hk), fun hk => h.mode (hmode hk), Or.inl ⟨rfl, h.ends⟩⟩

/-- Setting the transfer mode. -/
theorem Twins.setMode {k : Shared} (h : Twins b1 b2 k s1 s2) (binary : Bool) :
    Twins b1 b2 k { s1 with data := { s1.data with transferModeBinary := binary } }
      { s2 with data := { s2.data with transferModeBinary := binary } } :=
  ⟨h.core, h.cwd, fun _ => rfl, h.client⟩

/-- Setting the working directory. -/
theorem Twins.setCwd {k k' : Shared} (h : Twins b1 b2 k s1 s2) (cwd : List Byte) (len : ℕ)
    (hmode : k'.mode = true → k.mode = true) (hclient : k'.client = k.client) :
    Twins b1 b2 k' { s1 with data := { s1.data with cwd := cwd, cwdLen := len } }
      { s2 with data := { s2.data with cwd := cwd, cwdLen := len } } :=
  ⟨h.core, fun _ => ⟨rfl, rfl⟩, fun hk => h.mode (hmode hk), hclient ▸ h.client⟩

/-! ### Programs that do the same on both sides -/

/-- The program keeps what the servers share. -/
abbrev Kept (os1 os2 : Os) (b1 b2 : St) (k : Shared) (m : ServerM α) : Prop :=
  Keeps os1 os2 (Ends b1 b2) (Twins b1 b2 k) m

variable {k : Shared}

theorem kept_modify {f : ServerData → ServerData} (hf : Uniform f) :
    Kept os1 os2 b1 b2 k (modifyData f) := .modifyData fun _ _ h => h.update hf

theorem kept_setSock {slot : Slot} {fd : Int} :
    Kept os1 os2 b1 b2 k (modifyData (ServerData.setSock · slot fd)) := by
  cases slot with
  | transferClient => exact .modifyData fun _ _ h => h.setClient fd id id
  | _ => exact kept_modify ⟨fun _ => rfl, fun _ => ⟨rfl, rfl⟩, fun _ => rfl, fun _ => rfl⟩

theorem kept_emit (e : Event) : Kept os1 os2 b1 b2 k (emit e) := .emit (fun e _ _ h => h.push e) e

theorem kept_sysReaddir {d : Dir} : Kept os1 os2 b1 b2 k (sysReaddir d) :=
  .bind (kept_emit _) fun _ => .pure _

theorem kept_serverAbsPathIsNotAboveRootPath {absPath : List Byte} {len : ℕ} :
    Kept os1 os2 b1 b2 k (serverAbsPathIsNotAboveRootPath absPath len) := by
  refine .reads (fun _ _ h => ?_) fun _ => .pure _
  simp only [absPathIsNotAboveRootPath, h.rootPath, h.rootPathLen]

section

variable (hsame : SameWorlds os1 os2 b1 b2)

include hsame

theorem kept_peek {ρ : Type} {answer : Os → Log → ρ}
    (h : ∀ {l1 l2}, Agree os1 os2 l1 l2 → answer os1 l1 = answer os2 l2) :
    Kept os1 os2 b1 b2 k (Prog.peek answer) := .peek fun _ _ hT => h (hsame _ _ hT.ends)

theorem kept_call {ρ : Type} {answer : Os → Log → ρ} {record : ρ → Event}
    (h : ∀ {l1 l2}, Agree os1 os2 l1 l2 → answer os1 l1 = answer os2 l2) :
    Kept os1 os2 b1 b2 k (Prog.call answer record) :=
  .call (fun e _ _ h => h.push e) fun _ _ hT => h (hsame _ _ hT.ends)

theorem kept_undefinedBehaviour : Kept os1 os2 b1 b2 k undefinedBehaviour :=
  .bind (kept_peek hsame (·.survives)) fun _ => .ite (.pure _) (.stop fun _ _ h => h.ends)

theorem kept_readString {a : List Byte} : Kept os1 os2 b1 b2 k (readString a) :=
  .bind (kept_peek hsame (·.behind)) fun _ => .pure _

theorem kept_readBytes {a : List Byte} {n : ℕ} : Kept os1 os2 b1 b2 k (readBytes a n) :=
  .bind (kept_peek hsame (·.behind)) fun _ => .pure _

theorem kept_printFormat {format : List Byte} {arg : ℕ} :
    Kept os1 os2 b1 b2 k (printFormat format arg) := by
  unfold printFormat
  cases formatText format arg with
  | some out => exact .pure _
  | none => exact .bind (kept_undefinedBehaviour hsame) fun _ => kept_peek hsame (·.conversion)

/-! ### The file system -/

theorem kept_filesystemGetRealPath {cwd : Option (List Byte)} {path realPath : List Byte}
    {cwdLen pathLen size realPathLen : ℕ} : Kept os1 os2 b1 b2 k
      (filesystemGetRealPath cwd cwdLen path pathLen realPath size realPathLen) := by
  unfold filesystemGetRealPath
  refine .ite ?_ (.pure _)
  cases realPathTarget cwd cwdLen path pathLen with
  | none => exact .pure _
  | some lpath =>
    refine .bind (kept_call hsame fun h => congrFun h.realpath lpath) fun p => ?_
    cases p with
    | none => exact .pure _
    | some p => exact .ite (.pure _) (.pure _)

theorem kept_filesystemHasKind {kind : FileKind} {path : List Byte} {len : ℕ} :
    Kept os1 os2 b1 b2 k (filesystemHasKind kind path len) := by
  refine .ite (.bind (kept_peek hsame (·.leftover)) fun _ => ?_) (.pure _)
  exact .bind (kept_call hsame fun h => congrFun h.stat path) fun _ => .pure _

theorem kept_filesystemListDirPerLine {path buf : List Byte} {pathLen size bufLen : ℕ}
    {prependDir : Bool} {cookie : Option Dir} : Kept os1 os2 b1 b2 k
      (filesystemListDirPerLine path pathLen buf size bufLen prependDir cookie) := by
  refine .ite (.bind ?_ fun d => ?_) (.pure _)
  · cases cookie with
    | none => exact kept_call hsame fun h => congrFun h.opendir path
    | some d => exact .pure _
  cases d with
  | none => exact .pure _
  | some d =>
    refine .bind kept_sysReaddir fun out => ?_
    obtain ⟨ldir, d⟩ := out
    cases ldir with
    | none => exact .bind (kept_emit _) fun _ => .pure _
    | some name => exact .ite (.pure _) (.bind (kept_emit _) fun _ => .pure _)

theorem kept_filesystemOpenFile {path : List Byte} {len size : ℕ} {fd : Int} :
    Kept os1 os2 b1 b2 k (filesystemOpenFile path len fd size) := by
  refine .ite (.bind (kept_call hsame fun h => congrFun h.access path) fun retval => ?_) (.pure _)
  refine .ite (.bind (kept_call hsame fun h => congrFun h.openFile path) fun fd => ?_) (.pure _)
  refine .ite (.pure _) (.bind (kept_call hsame fun h => congrFun h.fstat fd) fun statBuf => ?_)
  cases statBuf with
  | none => exact .pure _
  | some st => exact .pure _

/-! ### Sockets -/

theorem kept_createPassiveSocket {port : UInt16} {slot : Slot} :
    Kept os1 os2 b1 b2 k (createPassiveSocket port slot) := by
  refine .bind (kept_call hsame (·.socket)) fun fd => ?_
  refine .bind kept_setSock fun _ => ?_
  refine .bind (.onOk (kept_call hsame fun h => congrFun h.fcntl fd)) fun _ => ?_
  refine .bind (.onOk (kept_call hsame fun h => congrFun h.setsockopt fd)) fun _ => ?_
  refine .bind (.onOk (kept_call hsame fun h => congrFun (congrFun h.bind fd) port)) fun _ => ?_
  refine .bind (.onOk (kept_call hsame fun h => congrFun h.listen fd)) fun _ => .ite (.pure _) ?_
  refine .bind (kept_call hsame fun h => congrFun h.shutdown fd) fun _ => ?_
  exact .bind (kept_call hsame fun h => congrFun h.close fd) fun _ => .pure _

theorem kept_closeSocket {slot : Slot} (hslot : slot = .transferClient → k.client = true) :
    Kept os1 os2 b1 b2 k (closeSocket slot) := by
  refine .reads (fun _ _ h => ?_) fun d => ?_
  · simp only [h.sock hslot]
  · refine .bind (.onOk (kept_call hsame fun h => congrFun h.shutdown _)) fun _ => ?_
    refine .bind (.onOk (kept_call hsame fun h => congrFun h.close _)) fun _ => ?_
    exact .bind kept_setSock fun _ => .pure _

/-- **Closing the data connection.**  Here the servers may do different things, if they have been
left with different descriptors; behind it they are alike. -/
theorem rwp_closeTransferClient {m1 m2 : ServerM α} {Q : α → St → St → Prop}
    (h : Twins b1 b2 k s1 s2)
    (hm : ∀ t1 t2, Twins b1 b2 k.connecting t1 t2 → rwp os1 os2 m1 m2 Q (Ends b1 b2) t1 t2) :
    rwp os1 os2 (serverCloseTransferClientSocket >>= fun _ => m1)
      (serverCloseTransferClientSocket >>= fun _ => m2) Q (Ends b1 b2) s1 s2 := by
  rcases h.client with ⟨hshared, hcont⟩ | ⟨-, hleft1, hleft2, N, hN1, hN2⟩
  · -- the descriptor is shared, and so is what is done with it
    have hconnecting : Twins b1 b2 k.connecting s1 s2 :=
      ⟨h.core, h.cwd, h.mode, Or.inl ⟨hshared, hcont⟩⟩
    exact rwp_seq (kept_closeSocket hsame (fun _ => rfl) hconnecting) fun _ => hm
  · -- each closes the descriptor it has been left with
    obtain ⟨_, _, hrun1, X1, hX1, rfl⟩ := exists_run_of_wp
      (@wp_closeSocket os1 s1 (fun _ => False) .transferClient)
    obtain ⟨_, _, hrun2, X2, hX2, rfl⟩ := exists_run_of_wp
      (@wp_closeSocket os2 s2 (fun _ => False) .transferClient)
    refine (rwp_bind_of_returns hrun1 hrun2).mpr (hm _ _ ⟨h.core, h.cwd, h.mode, Or.inl ⟨rfl, ?_⟩⟩)
    change Continues b1 b2 (X1 ++ s1.log) (X2 ++ s2.log)
    rw [hN1, hN2]
    exact .closed [] N (hleft1 ▸ hX1) (hleft2 ▸ hX2)

/-- Closing the data connection is kept by what comes behind it. -/
theorem kept_closing {m : ServerM α} (hm : Kept os1 os2 b1 b2 k.connecting m) :
    Kept os1 os2 b1 b2 k (serverCloseTransferClientSocket >>= fun _ => m) :=
  fun _ _ h => rwp_closeTransferClient hsame h fun _ _ h' =>
    rwp_mono (hm h') (fun _ _ _ h => h.of_connecting) fun _ _ h => h

theorem kept_serverClientDisconnect : Kept os1 os2 b1 b2 k serverClientDisconnect := by
  refine .bind (kept_emit _) fun _ => kept_closing hsame ?_
  refine .bind (kept_closeSocket hsame (by simp)) fun _ => ?_
  refine .bind (kept_closeSocket hsame (by simp)) fun _ => ?_
  exact .bind (kept_modify ⟨fun _ => rfl, fun _ => ⟨rfl, rfl⟩, fun _ => rfl, fun _ => rfl⟩)
    fun _ => .pure _

theorem kept_serverStop : Kept os1 os2 b1 b2 k serverStop := by
  have hmodify : ∀ {f : ServerData → ServerData}, Uniform f → Kept os1 os2 b1 b2 k.connecting
      (modifyData f) := fun hf => kept_modify hf
  refine .bind (kept_emit _) fun _ => kept_closing hsame ?_
  refine .bind (kept_closeSocket hsame (by simp)) fun _ => ?_
  refine .bind (kept_closeSocket hsame (by simp)) fun _ => .reads (fun _ _ h => ?_) fun d => ?_
  · simp only [h.serverSock]
  · refine .bind (.ite ?_ (.pure _)) fun _ => ?_
    · refine .bind (kept_call hsame fun h => congrFun h.shutdown _) fun _ => ?_
      refine .bind (kept_call hsame fun h => congrFun h.close _) fun _ => ?_
      exact kept_modify ⟨fun _ => rfl, fun _ => ⟨rfl, rfl⟩, fun _ => rfl, fun _ => rfl⟩
    · exact .bind (hmodify ⟨fun _ => rfl, fun _ => ⟨rfl, rfl⟩, fun _ => rfl, fun _ => rfl⟩)
        fun _ => .pure _

/-- **Accepting a data connection.**  Once it is accepted its descriptor is shared. -/
theorem rwp_serverAccept (h : Twins b1 b2 k s1 s2) :
    rwp os1 os2 serverAcceptTransferClientConnection serverAcceptTransferClientConnection
      (fun r t1 t2 => Twins b1 b2 (if r = 0 then k.connecting else k) t1 t2 ∧
        (r = 0 → s1.data.transferSock ≠ -1 ∧ 0 ≤ os1.accept s1.log s1.data.transferSock))
      (Ends b1 b2) s1 s2 := by
  have hno : ∀ {t1 t2 : St} {P : Prop}, Twins b1 b2 k t1 t2 →
      Twins b1 b2 (if (-1 : Int) = 0 then k.connecting else k) t1 t2 ∧ ((-1 : Int) = 0 → P) :=
    fun h => ⟨h, fun h0 => absurd h0 (by decide)⟩
  refine rwp_getData.mpr ?_
  rw [← h.transferSock]
  refine rwp_ite (fun hsock => ?_) fun _ => (rwp_pure _).mpr (hno h)
  refine rwp_seq (Q := fun r t1 t2 => r = os1.accept s1.log s1.data.transferSock ∧
      t1 = ⟨s1.data, .accept .transferClient s1.data.transferSock r :: s1.log⟩ ∧
      t2 = ⟨s2.data, .accept .transferClient s1.data.transferSock r :: s2.log⟩)
    (rwp_call (congrFun (hsame _ _ h.ends).accept _) fun r hr => ⟨hr, rfl, rfl⟩) ?_
  rintro lsock _ _ ⟨hlsock, rfl, rfl⟩
  have h' := h.push (.accept .transferClient s1.data.transferSock lsock)
  refine rwp_ite (fun hpos => ?_) fun _ => (rwp_pure _).mpr (hno h')
  exact ⟨rfl, h'.setClient lsock id id, fun _ => ⟨hsock, hlsock ▸ hpos⟩⟩

/-! ### Replies and files -/

theorem kept_serverSendReply {text : List Byte} :
    Kept os1 os2 b1 b2 k (serverSendReply text) := by
  refine .ite (.pure _) (.ite (.pure _) (.reads (fun _ _ h => ?_) fun d => ?_))
  · simp only [h.clientSock]
  · exact .bind (kept_call hsame fun h => congrFun (congrFun h.write _) _) fun _ => .pure _

theorem kept_sendReplyOwnBuf {who : Slot} (hwho : who = .transferClient → k.client = true)
    {buf : List Byte} {size len : ℕ} : Kept os1 os2 b1 b2 k (sendReplyOwnBuf who buf size len) := by
  refine .ite (.reads (fun _ _ h => ?_) fun d => ?_) (.pure _)
  · simp only [h.sock hwho]
  · refine .bind (kept_readBytes hsame) fun bytes => ?_
    exact .bind (kept_call hsame fun h => congrFun (congrFun h.write _) _) fun _ => .pure _

theorem kept_sendOwnSock {who : Slot} {sock : Int} {buf : List Byte} {send : ℕ} :
    Kept os1 os2 b1 b2 k (sendOwnSock who sock buf send) :=
  .bind (kept_call hsame fun h => congrFun (congrFun h.write _) _) fun _ => .ite (.pure _) (.pure _)

theorem kept_receiveOwnSock {sock : Int} {size : ℕ} :
    Kept os1 os2 b1 b2 k (receiveOwnSock sock size) := by
  refine .bind (kept_call hsame fun h => congrFun (congrFun h.read _) _) fun bytesRead => ?_
  cases bytesRead with
  | none => exact .pure _
  | some bytes => exact .pure _

/-- Sending a file, by induction on the rounds. -/
theorem kept_sendfileLoop (hk : k.client = true) {fd : Int} {fuel : ℕ} :
    ∀ {count numSent : ℕ} {retval : Int},
      Kept os1 os2 b1 b2 k (sendfileLoop fd fuel count numSent retval) := by
  induction fuel with
  | zero => exact fun {_ _ _} => .ite (.stop fun _ _ h => h.ends) (.pure _)
  | succ fuel ih =>
    intro count numSent retval
    refine .ite (.bind (kept_call hsame fun h => congrFun (congrFun h.readFile _) _) ?_) (.pure _)
    intro numRead
    cases numRead with
    | none => exact .pure _
    | some bytes =>
      cases bytes with
      | nil => exact .pure _
      | cons b fileBuf =>
        refine .reads (fun _ _ h => ?_) fun d => ?_
        · simp only [h.transferClientSock hk]
        · refine .bind (kept_sendOwnSock hsame) fun out => .ite (.pure _) (.ite (.pure _) ?_)
          exact ih

theorem kept_serverSendfileTransfer (hk : k.client = true) {path : List Byte} {len : ℕ} :
    Kept os1 os2 b1 b2 k (serverSendfileTransfer path len) := by
  refine .bind (kept_filesystemOpenFile hsame) fun out => ?_
  refine .bind (.onOk (kept_sendfileLoop hsame hk)) fun _ => ?_
  have hclose : Kept os1 os2 b1 b2 k (sysCloseFile out.fd) :=
    kept_call hsame fun h => congrFun h.closeFile _
  exact .bind hclose fun _ => .pure _

theorem kept_serverGetServerIP4 {buf : List Byte} {size len : ℕ} :
    Kept os1 os2 b1 b2 k (serverGetServerIP4 buf size len) := by
  refine .ite (.reads (fun _ _ h => ?_) fun d => ?_) (.pure _)
  · simp only [h.ipAddr]
  · exact .bind (kept_readString hsame) fun _ => .pure _

/-! ### Paths -/

theorem kept_serverGetCwd (hk : k.cwd = true) {buf : List Byte} {size len : ℕ} :
    Kept os1 os2 b1 b2 k (serverGetCwd buf size len) := by
  refine .reads (fun _ _ h => ?_) fun d => .ite ?_ (.pure _)
  · simp only [(h.cwd hk).1, (h.cwd hk).2]
  · exact .bind (kept_printFormat hsame) fun _ => .ite (.pure _) (.pure _)

theorem kept_serverServerPathToRealPath (hk : k.cwd = true) {path realPath : List Byte}
    {len size realPathLen : ℕ} : Kept os1 os2 b1 b2 k
      (serverServerPathToRealPath path len realPath size realPathLen) := by
  refine .ite (.ite (.reads (fun _ _ h => ?_) fun d => ?_) ?_) (.pure _)
  · simp only [absoluteBuf, h.rootPath, h.rootPathLen]
  · exact .bind (kept_readString hsame) fun _ => kept_filesystemGetRealPath hsame
  · refine .bind (kept_serverGetCwd hsame hk) fun cwd => .ite ?_ (.pure _)
    exact .bind (kept_readString hsame) fun _ => kept_filesystemGetRealPath hsame

theorem kept_serverRealPathToServerPath {realPath serverPath : List Byte}
    {realPathLen size serverPathLen : ℕ} : Kept os1 os2 b1 b2 k
      (serverRealPathToServerPath realPath realPathLen serverPath size serverPathLen) := by
  refine .ite (.reads (fun _ _ h => ?_) fun d => ?_) (.pure _)
  · simp only [h.rootPath]
  · refine .bind (kept_peek hsame (·.behind)) fun behind => ?_
    dsimp only
    split
    · exact .pure _
    · exact .pure _

/-- `VSFTPServerSetCwd` in a server whose working directory is shared. -/
theorem kept_serverSetCwd (hk : k.cwd = true) {dir : List Byte} {len : ℕ} :
    Kept os1 os2 b1 b2 k (serverSetCwd dir len) := by
  refine .bind (kept_serverGetCwd hsame hk) fun cwd => ?_
  refine .bind (.ite (.bind (kept_readString hsame) fun _ => kept_filesystemGetRealPath hsame)
    (kept_filesystemGetRealPath hsame)) fun out => ?_
  refine .bind (kept_readString hsame) fun realPath => ?_
  refine .bind (.onOk (kept_filesystemHasKind hsame)) fun _ => ?_
  refine .bind (.onOk kept_serverAbsPathIsNotAboveRootPath) fun _ => .onOk (.ite ?_ (.pure _))
  exact .bind (.modifyData fun _ _ h => h.setCwd _ _ id rfl) fun _ => .pure _

/-! ### Entering a directory -/

omit hsame

/-- An absolute path is resolved without the working directory. -/
theorem resolve_abs {dir : List Byte} (hdir : filesystemIsAbsPath dir = 0) {len : ℕ}
    (cwd : PathOut) : (if cwd.retval = 0 then do
        let cwdString ← readString cwd.buf
        filesystemGetRealPath (some cwdString) cwd.len dir len [] pathLenMax 0
      else filesystemGetRealPath none 0 dir len [] pathLenMax 0 : ServerM PathOut)
      = filesystemGetRealPath none 0 dir len [] pathLenMax 0 := by
  have habs : ∀ (cwd : Option (List Byte)) (cwdLen : ℕ),
      (filesystemGetRealPath cwd cwdLen dir len [] pathLenMax 0 : ServerM PathOut)
        = filesystemGetRealPath none 0 dir len [] pathLenMax 0 := by
    intro cwd cwdLen
    unfold filesystemGetRealPath realPathTarget
    rw [if_pos hdir, if_pos hdir]
  by_cases h : cwd.retval = 0
  · rw [if_pos h]
    simp only [habs]
    rfl
  · rw [if_neg h]

theorem Printable.not_kills {os : Os} {d : ServerData} (h : Printable os d) {s : St}
    (hs : s.data.cwd = d.cwd ∧ s.data.cwdLen = d.cwdLen) : ¬ PrintKills os s := by
  rintro ⟨hformat, hdies⟩
  rcases h with h | h
  · rw [← hs.1, ← hs.2, hformat] at h
    exact absurd h (by decide)
  · exact absurd ((h s.log).symm.trans hdies) (by decide)

include hsame in
/-- **Entering a directory.**  The working directory that is left is printed first, and if the
process survives that, the new one is shared. -/
theorem rwp_serverSetCwd {dir : List Byte} {len : ℕ} (hdir : filesystemIsAbsPath dir = 0)
    (hprint1 : ¬ PrintKills os1 s1) (hprint2 : ¬ PrintKills os2 s2) (h : Twins b1 b2 k s1 s2) :
    rwp os1 os2 (serverSetCwd dir len) (serverSetCwd dir len)
      (fun r => Twins b1 b2 (if r = 0 then k.entering else k)) (Ends b1 b2) s1 s2 := by
  obtain ⟨cwd1, _, hrun1, -, rfl⟩ := exists_run_of_wp
    (wp_serverGetCwd fun hk => absurd hk hprint1)
  obtain ⟨cwd2, _, hrun2, -, rfl⟩ := exists_run_of_wp
    (wp_serverGetCwd fun hk => absurd hk hprint2)
  refine (rwp_bind_of_returns hrun1 hrun2).mpr ?_
  rw [resolve_abs hdir, resolve_abs hdir]
  refine rwp_seq (kept_filesystemGetRealPath hsame h) fun out _ _ h => ?_
  refine rwp_seq (kept_readString hsame h) fun realPath _ _ h => ?_
  refine rwp_seq (Keeps.onOk (kept_filesystemHasKind hsame) h) fun retval _ _ h => ?_
  refine rwp_seq (Keeps.onOk kept_serverAbsPathIsNotAboveRootPath h) fun retval _ _ h => ?_
  refine rwp_onOk (fun _ => rwp_ite (fun _ => ?_) fun _ => (rwp_pure _).mpr h) fun hne => ?_
  · refine rwp_seq (Q := fun _ => Twins b1 b2 k.entering)
      ((rwp_modifyData _).mpr (h.setCwd _ _ id rfl)) fun _ _ _ h => (rwp_pure _).mpr ?_
    rw [if_pos rfl]
    exact h
  · rw [if_neg hne]
    exact h

end

end VsFtp
