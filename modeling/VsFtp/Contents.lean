import VsFtp.Host
import VsFtp.Parts
import VsFtp.Twins

/-!
# What is in a file does not show

The bytes of a file go to the data connection.  Nothing else depends on them, as long as no
uninitialised memory is read, in which they may still be found: two systems on which the files have
different contents, of the same sizes, and which answer alike otherwise, cannot be told apart by the
replies, by the calls that are made or by the record of the server.

## Main definitions

* `hidden` — a log in which the contents of files are blanked out.
* `AlikeOutside` — two systems that answer alike up to these contents.
* `AgreeOutside` — they also have the same in memory.
* `SameOutside` — two states that are the same up to the contents of files.

## Main results

* `outside_sendfileLoop`, `outside_pervades` — sending a file, and the functions of the server.
* `exists_remembered` — what a run finds in memory need not tell what is in files.
* `contents_hidden` — **runs on the two systems are the same up to the contents of files.**
-/

namespace VsFtp

open CString Prog

attribute [local irreducible] serverSendReply helpText

variable {os os₁ os₂ : Os} {s₁ s₂ : St} {argv : Argv} {l₁ l₂ : Log} {α : Type}

/-! ### Blanking out -/

/-- As many bytes, all zero. -/
def zeros (bytes : List Byte) : List Byte := List.replicate bytes.length 0

/-- Bytes of a file are read. -/
def Event.readsFile : Event → Bool
  | .readFile _ _ _ => true
  | _ => false

/-- A record without the contents of a file: of what is read from one, and of what is sent right
behind such a call. -/
def Event.hide (behindRead : Bool) (e : Event) : Event :=
  match e with
  | .readFile fd n r => .readFile fd n (r.map zeros)
  | .write .transferClient fd bytes w =>
      .write .transferClient fd (if behindRead then zeros bytes else bytes) w
  | e => e

/-- The last record is one of bytes that were read from a file. -/
def readBefore (log : Log) : Bool := log.head?.any Event.readsFile

/-- A log without the contents of files. -/
def hidden : Log → Log
  | [] => []
  | e :: log => e.hide (readBefore log) :: hidden log

@[simp] theorem Event.hide_readsFile (b : Bool) (e : Event) :
    (e.hide b).readsFile = e.readsFile := by
  cases e with
  | write who => cases who <;> rfl
  | _ => rfl

/-- What is blanked out can be told from what is left. -/
theorem readBefore_hidden (log : Log) : readBefore (hidden log) = readBefore log := by
  cases log with
  | nil => rfl
  | cons e log => exact Event.hide_readsFile _ e

theorem hidden_cons (h : hidden l₁ = hidden l₂) (e : Event) :
    hidden (e :: l₁) = hidden (e :: l₂) := by
  rw [hidden, hidden, h, ← readBefore_hidden l₁, h, readBefore_hidden]

/-- What a log tells without the contents of files. -/
theorem countP_hidden {p : Event → Bool} (hp : ∀ b e, p (Event.hide b e) = p e) (log : Log) :
    (hidden log).countP p = log.countP p := by
  induction log with
  | nil => rfl
  | cons e log ih => rw [hidden, List.countP_cons, List.countP_cons, ih, hp]

theorem findSome?_hidden {β : Type} {f : Event → Option β} (hf : ∀ b e, f (Event.hide b e) = f e)
    (log : Log) : (hidden log).findSome? f = log.findSome? f := by
  induction log with
  | nil => rfl
  | cons e log ih => rw [hidden, List.findSome?_cons, List.findSome?_cons, ih, hf]

theorem openFds_hidden (inherited : List Int) (log : Log) :
    openFds inherited (hidden log) = openFds inherited log := by
  have hopened : ∀ b (e : Event), (e.hide b).opened = e.opened := by
    intro b e
    cases e with
    | write who => cases who <;> rfl
    | _ => rfl
  have hreleased : ∀ b (e : Event), (e.hide b).released = e.released := by
    intro b e
    cases e with
    | write who => cases who <;> rfl
    | _ => rfl
  induction log with
  | nil => rfl
  | cons e log ih =>
    unfold openFds at ih ⊢
    rw [hidden, Ledger.live, Ledger.live, ih, hopened, hreleased]

/-! ### Systems that are alike -/

/-- The system with files that contain nothing but zeros. -/
def Os.zeroed (os : Os) : Os where
  toSyscalls := { os.toSyscalls with readFile := fun log fd n => (os.readFile log fd n).map zeros }
  zero_inherited := os.zero_inherited
  socket_fresh := os.socket_fresh
  accept_fresh := os.accept_fresh
  openFile_fresh := os.openFile_fresh
  read_length_le := os.read_length_le
  readFile_length_le := by
    intro log fd n bytes h
    obtain ⟨r, hr, rfl⟩ := Option.map_eq_some_iff.mp h
    rw [zeros, List.length_replicate]
    exact os.readFile_length_le hr
  write_le := os.write_le
  realpath_canonical := os.realpath_canonical

/-- Two systems answer alike, whatever is in their files, as long as these have the same sizes.
What becomes of a `write` depends on how many bytes there are. -/
structure AlikeOutside (os₁ os₂ : Os) : Prop where
  answers : ∀ {l₁ l₂}, hidden l₁ = hidden l₂ → SameAnswers os₁.zeroed os₂.zeroed l₁ l₂
  write : ∀ {l₁ l₂}, hidden l₁ = hidden l₂ → ∀ fd {b₁ b₂ : List Byte}, b₁.length = b₂.length →
    os₁.write l₁ fd b₁ = os₂.write l₂ fd b₂

/-- The systems are alike in what is no answer of a call as well. -/
structure AgreeOutside (os₁ os₂ : Os) : Prop where
  answers : ∀ {l₁ l₂}, hidden l₁ = hidden l₂ → Agree os₁.zeroed os₂.zeroed l₁ l₂
  write : ∀ {l₁ l₂}, hidden l₁ = hidden l₂ → ∀ fd {b₁ b₂ : List Byte}, b₁.length = b₂.length →
    os₁.write l₁ fd b₁ = os₂.write l₂ fd b₂

/-- Memory that does not tell what is in files. -/
def Memory.outside (memory : Memory) : Memory where
  leftover log := memory.leftover (hidden log)
  behind log := memory.behind (hidden log)
  conversion log := memory.conversion (hidden log)
  survives log := memory.survives (hidden log)

/-- Systems that answer alike agree once there is the same in their memory. -/
theorem AlikeOutside.holding (h : AlikeOutside os₁ os₂) (memory : Memory) :
    AgreeOutside (os₁.holding memory.outside) (os₂.holding memory.outside) := by
  constructor
  · intro l₁ l₂ hl
    exact ⟨(h.answers hl).holding memory.outside, congrArg memory.leftover hl,
      congrArg memory.behind hl, congrArg memory.conversion hl, congrArg memory.survives hl⟩
  · exact h.write

/-- Two states that are the same up to the contents of files. -/
structure SameOutside (s₁ s₂ : St) : Prop where
  data : s₁.data = s₂.data
  log : hidden s₁.log = hidden s₂.log

theorem SameOutside.push (h : SameOutside s₁ s₂) (e : Event) :
    SameOutside { s₁ with log := e :: s₁.log } { s₂ with log := e :: s₂.log } :=
  ⟨h.data, hidden_cons h.log e⟩

/-- A program that does the same on both systems, up to the contents of files. -/
abbrev Outside (os₁ os₂ : Os) (m : ServerM α) : Prop := Keeps os₁ os₂ SameOutside SameOutside m

/-! ### The parts -/

section Parts

theorem outside_getData : Outside os₁ os₂ getData := by
  intro s₁ s₂ h
  exact ⟨h.data, h⟩

theorem outside_modifyData (f : ServerData → ServerData) : Outside os₁ os₂ (modifyData f) :=
  .modifyData fun _ _ h => ⟨congrArg f h.data, h.log⟩

theorem outside_emit (e : Event) : Outside os₁ os₂ (emit e) :=
  .emit (fun e _ _ h => h.push e) e

variable (halike : AgreeOutside os₁ os₂)

include halike

theorem outside_peek {ρ : Type} {answer : Os → Log → ρ}
    (h : ∀ {l₁ l₂}, Agree os₁.zeroed os₂.zeroed l₁ l₂ → answer os₁ l₁ = answer os₂ l₂) :
    Outside os₁ os₂ (peek answer) := .peek fun _ _ hT => h (halike.answers hT.log)

theorem outside_call {ρ : Type} {answer : Os → Log → ρ} {record : ρ → Event}
    (h : ∀ {l₁ l₂}, SameAnswers os₁.zeroed os₂.zeroed l₁ l₂ → answer os₁ l₁ = answer os₂ l₂) :
    Outside os₁ os₂ (call answer record) :=
  .call (fun e _ _ h => h.push e) fun _ _ hT => h (halike.answers hT.log).toSameAnswers

theorem Plain.outside {m : ServerM α} (h : Plain α m) : Outside os₁ os₂ m := by
  cases h with
  | getData => exact outside_getData
  | stop => exact .stop fun _ _ h => h
  | behind => exact outside_peek halike (·.behind)
  | survives => exact outside_peek halike (·.survives)
  | conversion => exact outside_peek halike (·.conversion)
  | errno => exact outside_peek halike (·.errno)
  | realpath path => exact outside_call halike fun h => congrFun h.realpath path
  | stat path => exact outside_call halike fun h => congrFun h.stat path
  | access path => exact outside_call halike fun h => congrFun h.access path
  | openFile path => exact outside_call halike fun h => congrFun h.openFile path
  | fstat fd => exact outside_call halike fun h => congrFun h.fstat fd
  | closeFile fd => exact outside_call halike fun h => congrFun h.closeFile fd
  | opendir path => exact outside_call halike fun h => congrFun h.opendir path
  | readdir d entry => exact outside_emit _
  | closedir d => exact outside_emit _

theorem Acts.outside {m : ServerM α} (h : Acts α m) : Outside os₁ os₂ m := by
  cases h with
  | modifyData f => exact outside_modifyData f
  | emit e => exact outside_emit e
  | socket => exact outside_call halike (·.socket)
  | fcntl fd => exact outside_call halike fun h => congrFun h.fcntl fd
  | setsockopt fd => exact outside_call halike fun h => congrFun h.setsockopt fd
  | bind fd port => exact outside_call halike fun h => congrFun (congrFun h.bind fd) port
  | listen fd => exact outside_call halike fun h => congrFun h.listen fd
  | accept who fd => exact outside_call halike fun h => congrFun h.accept fd
  | shutdown how fd => exact outside_call halike fun h => congrFun h.shutdown fd
  | close fd => exact outside_call halike fun h => congrFun h.close fd
  | read fd size => exact outside_call halike fun h => congrFun (congrFun h.read fd) size
  | write who fd bytes => exact outside_call halike fun h => congrFun (congrFun h.write fd) bytes

/-! ### Sending a file -/

/-- Right behind a read, data that agree in length are sent to the data connection alike. -/
theorem outside_sendOwnSock {sock : Int} {b₁ b₂ : List Byte} {n : ℕ} (h : SameOutside s₁ s₂)
    (hread : readBefore s₁.log = true) (hlen : b₁.length = b₂.length) :
    rwp os₁ os₂ (sendOwnSock .transferClient sock b₁ n) (sendOwnSock .transferClient sock b₂ n)
      (fun _ => SameOutside) SameOutside s₁ s₂ := by
  have hwrite := halike.write h.log sock hlen
  have hread₂ : readBefore s₂.log = true := by
    rw [← readBefore_hidden, ← h.log, readBefore_hidden, hread]
  have hzeros : zeros b₁ = zeros b₂ := congrArg (List.replicate · 0) hlen
  -- the two records differ in what is blanked out
  have hsent : SameOutside
      ⟨s₁.data, .write .transferClient sock b₁ (os₁.write s₁.log sock b₁) :: s₁.log⟩
      ⟨s₂.data, .write .transferClient sock b₂ (os₂.write s₂.log sock b₂) :: s₂.log⟩ := by
    refine ⟨h.data, ?_⟩
    rw [hidden, hidden, hread, hread₂, h.log, Event.hide, Event.hide,
      if_pos rfl, if_pos rfl, hzeros,
      hwrite]
  apply rwp_call_bind.mpr
  rw [hwrite] at hsent ⊢
  exact rwp_ite (fun _ => (rwp_pure _).mpr hsent) fun _ => (rwp_pure _).mpr hsent

/-- **Sending a file**, by induction on the rounds: as much is read and sent in each of them. -/
theorem outside_sendfileLoop {fd : Int} {fuel count numSent : ℕ} {retval : Int} :
    Outside os₁ os₂ (sendfileLoop fd fuel count numSent retval) := by
  induction fuel generalizing count numSent retval with
  | zero =>
    unfold sendfileLoop
    exact .ite (.stop fun _ _ h => h) (.pure _)
  | succ fuel ih =>
    unfold sendfileLoop
    apply Keeps.ite _ (.pure _)
    rintro ⟨d, l₁⟩ ⟨d', l₂⟩ h
    obtain rfl : d = d' := h.data
    have hsize := congrFun (congrFun (halike.answers h.log).readFile fd)
      (if count < fileReadBufSize then count else fileReadBufSize)
    change Option.map zeros (os₁.readFile l₁ fd _)
      = Option.map zeros (os₂.readFile l₂ fd _) at hsize
    have hread : ∀ {r₁ r₂ : Option (List Byte)} {n : ℕ}, r₁.map zeros = r₂.map zeros →
        SameOutside ⟨d, .readFile fd n r₁ :: l₁⟩ ⟨d, .readFile fd n r₂ :: l₂⟩ := by
      intro r₁ r₂ n hr
      refine ⟨rfl, ?_⟩
      rw [hidden, hidden, h.log, Event.hide, Event.hide, hr]
    apply rwp_call_bind.mpr
    -- what is read differs, but there is as much of it
    revert hsize
    generalize os₁.readFile l₁ fd _ = r₁
    generalize os₂.readFile l₂ fd _ = r₂
    intro hsize
    cases r₁ with
    | none =>
      cases r₂ with
      | none => exact (rwp_pure _).mpr (hread hsize)
      | some => exact absurd hsize (by simp)
    | some b₁ =>
      cases r₂ with
      | none => exact absurd hsize (by simp)
      | some b₂ =>
        have hlen : b₁.length = b₂.length := by
          have hzeros := congrArg List.length (Option.some.inj hsize)
          rwa [zeros, zeros, List.length_replicate, List.length_replicate] at hzeros
        cases b₁ with
        | nil =>
          obtain rfl := List.length_eq_zero_iff.mp hlen.symm
          exact (rwp_pure _).mpr (hread hsize)
        | cons b b₁ =>
          cases b₂ with
          | nil => exact absurd hlen (Nat.succ_ne_zero _)
          | cons b' b₂ =>
            apply rwp_getData.mpr
            apply rwp_seq (outside_sendOwnSock halike (hread hsize) rfl hlen)
            rintro ⟨retval, numSent⟩ t₁ t₂ ht
            exact rwp_ite (fun _ => (rwp_pure _).mpr ht)
              fun _ => rwp_ite (fun _ => (rwp_pure _).mpr ht) fun _ => ih ht

/-- **The functions of the server** do the same on both systems. -/
theorem outside_pervades : Pervades fun _ m => Outside os₁ os₂ m where
  toModular := Modular.keeps
  plain h := h.outside halike
  hasKind _ _ _ := modular_filesystemHasKind Modular.keeps (outside_peek halike (·.leftover))
    fun path => (Plain.stat path).outside halike
  acts h := h.outside halike
  file _ _ _ _ _ := outside_sendfileLoop halike

end Parts

/-! ### Memory -/

/-- In memory there is what the system has there, after a log. -/
structure Memory.At (memory : Memory) (os : Os) (log : Log) : Prop where
  leftover : memory.leftover log = os.leftover log
  behind : memory.behind log = os.behind log
  conversion : memory.conversion log = os.conversion log
  survives : memory.survives log = os.survives log

section Memory

variable {memory : Memory}

/-- The program does the same with other memory that contains the same whenever it is looked at. -/
abbrev Recalls (os : Os) (memory : Memory) (m : ServerM α) : Prop :=
  Local (memory.At os) os (os.holding memory) m

theorem Plain.recalls {m : ServerM α} (h : Plain α m) : Recalls os memory m := by
  cases h with
  | getData => exact .getData
  | stop => exact .stop
  | readdir d entry => exact .emit _
  | closedir d => exact .emit _
  | behind => exact .peek fun _ h => h.behind
  | survives => exact .peek fun _ h => h.survives
  | conversion => exact .peek fun _ h => h.conversion
  | errno => exact .peek fun _ _ => rfl
  | _ => exact .call rfl

theorem Acts.recalls {m : ServerM α} (h : Acts α m) : Recalls os memory m := by
  cases h with
  | modifyData f => exact .modifyData f
  | emit e => exact .emit e
  | _ => exact .call rfl

theorem recalls_sysReadFile {fd : Int} {size : ℕ} : Recalls os memory (sysReadFile fd size) :=
  .call rfl

/-- **The functions of the server** are such programs. -/
theorem recalls_pervades : Pervades fun _ m => Recalls os memory m where
  toModular := Modular.localTo
  plain h := h.recalls
  hasKind _ _ _ := modular_filesystemHasKind Modular.localTo (.peek fun _ h => h.leftover)
    fun path => (Plain.stat path).recalls
  acts h := h.recalls
  file _ _ _ _ _ := modular_sendfileLoop Modular.localTo Plain.recalls
    (fun _ _ => recalls_sysReadFile) fun who fd bytes => (Acts.write who fd bytes).recalls

end Memory

theorem hidden_length (log : Log) : (hidden log).length = log.length := by
  induction log with
  | nil => rfl
  | cons e log ih => rw [hidden, List.length_cons, List.length_cons, ih]

/-- What was in memory at the moments of a run, told by their numbers. -/
def Os.remembered (os : Os) (last : Log) : Memory where
  leftover log := os.leftover (last.drop (last.length - log.length))
  behind log := os.behind (last.drop (last.length - log.length))
  conversion log := os.conversion (last.drop (last.length - log.length))
  survives log := os.survives (last.drop (last.length - log.length))

/-- The memory of a run, told by its moments, is that of the system at every moment of the run. -/
theorem remembered_at {last l : Log} (h : l <:+ last) : (os.remembered last).outside.At os l := by
  have hl : last.drop (last.length - (hidden l).length) = l := by
    rw [hidden_length]
    exact (List.suffix_iff_eq_drop.mp h).symm
  constructor
  · exact congrArg os.leftover hl
  · exact congrArg os.behind hl
  · exact congrArg os.conversion hl
  · exact congrArg os.survives hl

/-- **A run on the second system** is one with memory that does not tell what is in files. -/
theorem exists_remembered {m : ServerM α} (hm : ∀ memory, Recalls os memory m) (s : St) :
    ∃ memory : Memory, m (os.holding memory.outside) s = m os s :=
  ⟨os.remembered (m os s).2.log, (hm _ s).2 fun _ hl => remembered_at hl⟩

/-! ### Runs -/

/-- A program that shows nothing of the contents of files runs alike on the other system. -/
theorem Outside.run {m : ServerM α} (h : Outside os₁ os₂ m) (hs : SameOutside s₁ s₂) :
    (m os₁ s₁).1 = (m os₂ s₂).1 ∧ SameOutside (m os₁ s₁).2 (m os₂ s₂).2 := by
  rcases rwp_cases (h hs) with ⟨a, t₁, t₂, h₁, h₂, ht⟩ | ⟨t₁, t₂, h₁, h₂, ht⟩
  · rw [h₁, h₂]
    exact ⟨rfl, ht⟩
  · rw [h₁, h₂]
    exact ⟨rfl, ht⟩

/-- A call that is determined runs alike on a system that differs in the contents of files. -/
theorem AlikeOutside.run (halike : AlikeOutside os₁ os₂) {m : ServerM α}
    (hm : ∀ {os₁ os₂}, AgreeOutside os₁ os₂ → Outside os₁ os₂ m)
    (hrecalls : ∀ memory, Recalls os₂ memory m) (hdet : Determined os₁ m s₁)
    (hs : SameOutside s₁ s₂) :
    (m os₁ s₁).1 = (m os₂ s₂).1 ∧ SameOutside (m os₁ s₁).2 (m os₂ s₂).2 := by
  obtain ⟨memory, hmemory⟩ := exists_remembered hrecalls s₂
  have hrun := (hm (halike.holding memory)).run hs
  rw [hdet, hmemory] at hrun
  exact hrun

/-- The server starts alike on a system that differs in the contents of files. -/
theorem AlikeOutside.start (halike : AlikeOutside os₁ os₂)
    (hdet : Determined os₁ (mainStart argv) St.zero) :
    (mainStart argv os₁ St.zero).1 = (mainStart argv os₂ St.zero).1 ∧
      SameOutside (mainStart argv os₁ St.zero).2 (mainStart argv os₂ St.zero).2 :=
  halike.run (fun h => (outside_pervades h).covers.mainStart argv)
    (fun _ => recalls_pervades.covers.mainStart argv) hdet ⟨rfl, rfl⟩

/-- A turn is taken alike on a system that differs in the contents of files. -/
theorem AlikeOutside.turn (halike : AlikeOutside os₁ os₂) (hdet : Determined os₁ serverHandler s₁)
    (hs : SameOutside s₁ s₂) : (serverHandler os₁ s₁).1 = (serverHandler os₂ s₂).1 ∧
      SameOutside (serverHandler os₁ s₁).2 (serverHandler os₂ s₂).2 :=
  halike.run (fun h => (outside_pervades h).serverHandler) (fun _ => recalls_pervades.serverHandler)
    hdet hs

/-- A system that differs in the contents of files reaches the same states but for them. -/
theorem ReachableBy.outside (halike : AlikeOutside os₁ os₂)
    (hstart : Determined os₁ (mainStart argv) St.zero)
    (h : ReachableBy os₁ argv (Determined os₁ serverHandler) s₁) :
    ∃ s₂, Reachable os₂ argv s₂ ∧ SameOutside s₁ s₂ := by
  refine Reach.invariant (I := fun s₁ => ∃ s₂, Reachable os₂ argv s₂ ∧ SameOutside s₁ s₂) h ?_ ?_
  · intro s₁ h0
    have hmain := halike.start hstart
    rw [show mainStart argv os₁ St.zero = (some 0, s₁) from h0] at hmain
    exact ⟨(mainStart argv os₂ St.zero).2, Reach.start (Prod.ext hmain.1.symm rfl), hmain.2⟩
  · rintro s₁ s₁' - ⟨s₂, hr, hs⟩ ⟨hdet, ht⟩
    have hturn := halike.turn hdet hs
    rw [show serverHandler os₁ s₁ = (some 0, s₁') from ht] at hturn
    exact ⟨(serverHandler os₂ s₂).2, Reach.step hr (Prod.ext hturn.1.symm rfl), hturn.2⟩

/-- **What is in the files does not show.**  Let two systems answer alike up to the contents of
files, and let the server on the first one read no uninitialised memory, and do nothing undefined,
from the start of `main` on.  Then whatever state it reaches, the server reaches on the other system
as well, up to these contents: with the same record, after the same calls with the same outcomes,
and having sent the same replies and listings, and as many bytes of each file.  One more call of
`VSFTPServerHandler` of this kind does the same on both as well, and returns the same, if it
returns. -/
theorem contents_hidden (halike : AlikeOutside os₁ os₂)
    (hstart : Determined os₁ (mainStart argv) St.zero)
    (h : ReachableBy os₁ argv (Determined os₁ serverHandler) s₁)
    (hdet : Determined os₁ serverHandler s₁) :
    ∃ s₂, Reachable os₂ argv s₂ ∧ SameOutside s₁ s₂ ∧
      (serverHandler os₁ s₁).1 = (serverHandler os₂ s₂).1 ∧
      SameOutside (serverHandler os₁ s₁).2 (serverHandler os₂ s₂).2 := by
  obtain ⟨s₂, hr, hs⟩ := ReachableBy.outside halike hstart h
  exact ⟨s₂, hr, hs, halike.turn hdet hs⟩

/-! ### Two machines -/

/-- The file of the machines below. -/
def vaultFile (content : List Byte) : Node :=
  Host.node ["srv", "f"] .regular content Host.valid_f

/-- A machine with one file, and a client that fetches it. -/
def vaultHost (content : List Byte) : Host :=
  { nodes := [Host.srv, vaultFile content],
    reads := [some (ascii "PASV" ++ crlf), some (ascii "RETR f" ++ crlf)], fileReads := [content] }

/-- What a path resolves to is the same file on all of them. -/
theorem vaultHost_find (path : List Byte) : (∀ content, (vaultHost content).find path = none) ∨
    (∀ content, (vaultHost content).find path = some Host.srv) ∨
      ∀ content, (vaultHost content).find path = some (vaultFile content) := by
  have hnames : ∀ content, (vaultFile content).path = (vaultFile []).path ∧
      (vaultFile content).names = (vaultFile []).names := fun _ => ⟨rfl, rfl⟩
  by_cases h1 : path = Host.srv.path ∨ path ∈ Host.srv.names
  · refine Or.inr (Or.inl fun content => ?_)
    simp [Host.find, vaultHost, h1]
  by_cases h2 : path = (vaultFile []).path ∨ path ∈ (vaultFile []).names
  · refine Or.inr (Or.inr fun content => ?_)
    simp [Host.find, vaultHost, h1, hnames content, h2]
  · refine Or.inl fun content => ?_
    simp [Host.find, vaultHost, h1, hnames content, h2]

/-- A lookup that sees only the size of a file answers the same on two of the machines. -/
theorem vaultHost_find_map {β : Type} {f : Node → β} {c₁ c₂ : List Byte}
    (hf : f (vaultFile c₁) = f (vaultFile c₂)) (path : List Byte) :
    ((vaultHost c₁).find path).map f = ((vaultHost c₂).find path).map f := by
  rcases vaultHost_find path with h | h | h
  · rw [h, h]
  · rw [h, h]
  · rw [h, h, Option.map_some, Option.map_some, hf]

/-- A machine counts the calls, and keeps the descriptors, that a hidden log tells as well. -/
theorem readCount_hidden (log : Log) : Host.readCount (hidden log) = Host.readCount log := by
  apply countP_hidden
  intro b e
  cases e with
  | write who => cases who <;> rfl
  | _ => rfl

theorem readFileCount_hidden (log : Log) :
    Host.readFileCount (hidden log) = Host.readFileCount log := by
  apply countP_hidden
  intro b e
  cases e with
  | write who => cases who <;> rfl
  | _ => rfl

theorem fstat_hidden (h : Host) (log : Log) (fd : Int) :
    h.os.fstat (hidden log) fd = h.os.fstat log fd := by
  apply findSome?_hidden
  intro b e
  cases e with
  | write who => cases who <;> rfl
  | _ => rfl

/-- **The machines are alike**, if the contents have the same size. -/
theorem alikeOutside_vaultHost {c₁ c₂ : List Byte} (hlen : c₁.length = c₂.length) :
    AlikeOutside (vaultHost c₁).os (vaultHost c₂).os := by
  have hpath : ∀ path, ((vaultHost c₁).find path).map Node.path =
      ((vaultHost c₂).find path).map Node.path := vaultHost_find_map rfl
  have hstat : ∀ path, ((vaultHost c₁).find path).map Host.statOf =
      ((vaultHost c₂).find path).map Host.statOf := by
    apply vaultHost_find_map
    simp [Host.statOf, vaultFile, Host.node, hlen]
  constructor
  · intro l₁ l₂ h
    have hopen : Host.openNow l₁ = Host.openNow l₂ := by
      unfold Host.openNow
      rw [← openFds_hidden, h, openFds_hidden]
    have hreads : Host.readCount l₁ = Host.readCount l₂ := by
      rw [← readCount_hidden, h, readCount_hidden]
    have hfiles : Host.readFileCount l₁ = Host.readFileCount l₂ := by
      rw [← readFileCount_hidden, h, readFileCount_hidden]
    constructor
    case socket => exact congrArg unusedFd hopen
    case accept =>
      funext fd
      show (if fd ∈ Host.openNow l₁ then unusedFd (Host.openNow l₁) else -1) =
        if fd ∈ Host.openNow l₂ then unusedFd (Host.openNow l₂) else -1
      rw [hopen]
    case read =>
      funext fd n
      exact congrArg (fun k => ((vaultHost c₁).reads.getD k (some [])).map (·.take n)) hreads
    case realpath => exact funext hpath
    case stat => exact funext hstat
    case openFile =>
      funext path
      have hsome : ((vaultHost c₁).find path).isSome = ((vaultHost c₂).find path).isSome := by
        rw [← Option.isSome_map, hpath, Option.isSome_map]
      show (if ((vaultHost c₁).find path).isSome then unusedFd (Host.openNow l₁) else -1) =
        if ((vaultHost c₂).find path).isSome then unusedFd (Host.openNow l₂) else -1
      rw [hopen, hsome]
    case fstat =>
      funext fd
      calc (vaultHost c₁).os.fstat l₁ fd
        _ = (vaultHost c₁).os.fstat (hidden l₁) fd := (fstat_hidden _ l₁ fd).symm
        _ = (vaultHost c₁).os.fstat (hidden l₂) fd := by rw [h]
        _ = (vaultHost c₁).os.fstat l₂ fd := fstat_hidden _ l₂ fd
        _ = (vaultHost c₂).os.fstat l₂ fd := by
          apply congrArg (fun f => List.findSome? f l₂)
          funext e
          cases e with
          | openFile path _ => exact hstat path
          | _ => rfl
    case readFile =>
      funext fd n
      show some (zeros ([c₁].getD (Host.readFileCount l₁) [] |>.take n)) =
        some (zeros ([c₂].getD (Host.readFileCount l₂) [] |>.take n))
      rw [hfiles]
      cases Host.readFileCount l₂ with
      | zero => simp [zeros, hlen]
      | succ k => rfl
    case opendir =>
      funext path
      show Option.map _ ((vaultHost c₁).find path) = Option.map _ ((vaultHost c₂).find path)
      rcases vaultHost_find path with h | h | h
      · rw [h, h]
        rfl
      · rw [h, h]
        rfl
      · rw [h, h]
        rfl
    all_goals rfl
  · intro l₁ l₂ h fd b₁ b₂ hb
    show ((min b₁.length b₁.length : ℕ) : Int) = (min b₂.length b₂.length : ℕ)
    rw [hb]

/-- The client is told the same, and sent as much, whatever is in the file. -/
theorem contents_hidden_retr :
    let s₁ := Host.run (vaultHost [1, 2, 3]).os 3 (Host.start (vaultHost [1, 2, 3]).os Host.argv)
    (∃ s₂, Reachable (vaultHost [4, 5, 6]).os Host.argv s₂ ∧ SameOutside s₁ s₂ ∧
      (serverHandler (vaultHost [1, 2, 3]).os s₁).1
        = (serverHandler (vaultHost [4, 5, 6]).os s₂).1 ∧
      SameOutside (serverHandler (vaultHost [1, 2, 3]).os s₁).2
        (serverHandler (vaultHost [4, 5, 6]).os s₂).2) ∧
      .write .transferClient 6 [1, 2, 3] 3 ∈ (serverHandler (vaultHost [1, 2, 3]).os s₁).2.log := by
  have hstart : Determined (vaultHost [1, 2, 3]).os (mainStart Host.argv) St.zero :=
    Host.determined_of_worst (by decide +kernel)
  have hdet : ∀ n < 4, serverHandler ((vaultHost [1, 2, 3]).os.holding (Host.worst
      (vaultHost [1, 2, 3]).os serverHandler (Host.run (vaultHost [1, 2, 3]).os n
        (Host.start (vaultHost [1, 2, 3]).os Host.argv))))
      (Host.run (vaultHost [1, 2, 3]).os n (Host.start (vaultHost [1, 2, 3]).os Host.argv))
      = serverHandler (vaultHost [1, 2, 3]).os
        (Host.run (vaultHost [1, 2, 3]).os n (Host.start (vaultHost [1, 2, 3]).os Host.argv)) := by
    decide +kernel
  have hrun := Host.reachableBy_run (C := Determined (vaultHost [1, 2, 3]).os serverHandler)
    (show Host.lasts (vaultHost [1, 2, 3]).os Host.argv 3 = true by decide +kernel)
    fun k hk => Host.determined_of_worst (hdet k (Nat.lt_succ_of_lt hk))
  exact ⟨contents_hidden (alikeOutside_vaultHost rfl) hstart hrun
    (Host.determined_of_worst (hdet 3 (by decide))), by decide +kernel⟩

end VsFtp
