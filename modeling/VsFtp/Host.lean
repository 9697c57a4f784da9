import VsFtp.Main

/-!
# A concrete system

An `Os` that answers as a small Linux machine would: descriptors are numbered
from the lowest unused one above those in use, calls succeed unless the host says
otherwise, the files are given by a table, and the reads on the control connection
deliver what the client is scripted to send.  Concrete runs of the server are runs
in such a system.

## Main definitions

* `Host` — the files and the client of a concrete system.
* `Host.os` — the system.
* `Host.run` — the states of a run of the server on it.

## Main results

* `Host.reachable_run` — the states of a run are reachable.
* `Host.reachableBy_run` — they are reachable by turns that meet a condition, if they meet it.
-/

namespace VsFtp

open CString

/-- A descriptor above all that are in use. -/
def unusedFd (fds : List Int) : Int := fds.foldr max 0 + 1

theorem lt_unusedFd {fds : List Int} {fd : Int} (h : fd ∈ fds) : fd < unusedFd fds := by
  unfold unusedFd
  induction fds with
  | nil => simp at h
  | cons a fds ih =>
    rw [List.foldr_cons]
    rcases List.mem_cons.mp h with rfl | h
    · omega
    · have := ih h; omega

theorem unusedFd_pos (fds : List Int) : 0 < unusedFd fds := by
  unfold unusedFd
  induction fds with
  | nil => simp
  | cons a fds ih => rw [List.foldr_cons]; omega

theorem unusedFd_notMem (fds : List Int) : unusedFd fds ∉ fds :=
  fun h => Int.lt_irrefl _ (lt_unusedFd h)

/-- An entry of a file system: its canonical path by components, the other names
it can be reached under, and what it is. -/
structure Node where
  components : List (List Byte)
  names : List (List Byte)
  kind : FileKind
  content : List Byte
  valid : ∀ c ∈ components, Path.IsName (47 : Byte) c ∧ NoNul c

/-- The canonical path of an entry. -/
def Node.path (n : Node) : List Byte := Path.render 47 n.components

/-- The files and the client of a concrete system. -/
structure Host where
  nodes : List Node
  /-- What the successive reads on sockets return. -/
  reads : List (Option (List Byte)) := []
  /-- What the successive reads on files return, as far as they ask for it. -/
  fileReads : List (List Byte) := []
  /-- The writes that fail. -/
  refuses : List Byte → Bool := fun _ => false
  /-- How many bytes the other writes accept at most. -/
  accepts : List Byte → ℕ := List.length
  bind : Int := 0
  shutdown : Int → Int := fun _ => 0
  errno : ℕ := eagain
  survives : Bool := true

namespace Host

/-- The entry a path resolves to. -/
def find (h : Host) (path : List Byte) : Option Node :=
  h.nodes.find? fun n => path = n.path ∨ path ∈ n.names

/-- What `stat` says about an entry. -/
def statOf (n : Node) : Stat :=
  ⟨n.kind, n.content.length % 2 ^ 64, Nat.mod_lt _ (Nat.two_pow_pos 64)⟩

/-- How many socket reads a log contains. -/
def readCount (log : Log) : ℕ :=
  log.countP fun | .read .. => true | _ => false

/-- How many file reads a log contains. -/
def readFileCount (log : Log) : ℕ :=
  log.countP fun | .readFile .. => true | _ => false

/-- The descriptors that are open on this host. -/
abbrev openNow (log : Log) : List Int := openFds [0, 1, 2] log

/-- The answers of the host. -/
def syscalls (h : Host) : Syscalls where
  inherited := [0, 1, 2]
  socket log := unusedFd (openNow log)
  fcntl _ _ := 0
  setsockopt _ _ := 0
  bind _ _ _ := h.bind
  listen _ _ := 0
  accept log fd := if fd ∈ openNow log then unusedFd (openNow log) else -1
  shutdown _ fd := h.shutdown fd
  close _ _ := 0
  read log _ n := (h.reads.getD (readCount log) (some [])).map (·.take n)
  write _ _ bytes := if h.refuses bytes then -1 else (min bytes.length (h.accepts bytes) : ℕ)
  errno _ := h.errno
  realpath _ path := (h.find path).map (·.path)
  stat _ path := (h.find path).map statOf
  access _ _ := 0
  openFile log path := if (h.find path).isSome then unusedFd (openNow log) else -1
  fstat log _ := log.findSome? fun
    | .openFile path _ => (h.find path).map statOf
    | _ => none
  readFile log _ n := some ((h.fileReads.getD (readFileCount log) []).take n)
  closeFile _ _ := 0
  opendir _ path := (h.find path).map fun n =>
    ⟨0, h.nodes.filterMap fun m =>
      if n.components = m.components.dropLast then m.components.getLast? else none⟩
  leftover _ := .empty .other
  behind _ := []
  conversion _ := []
  survives _ := h.survives

/-- The host as a system. -/
def os (h : Host) : Os where
  toSyscalls := h.syscalls
  zero_inherited := by simp [syscalls]
  socket_fresh log := Or.inr ⟨Int.le_of_lt (unusedFd_pos _), unusedFd_notMem _⟩
  accept_fresh log fd := by
    by_cases hfd : fd ∈ openNow log
    · exact Or.inr (by simpa [syscalls, hfd] using
        ⟨Int.le_of_lt (unusedFd_pos _), unusedFd_notMem _⟩)
    · exact Or.inl (by simp [syscalls, hfd])
  openFile_fresh log path := by
    by_cases hp : (h.find path).isSome
    · exact Or.inr (by simpa [syscalls, hp] using
        ⟨Int.le_of_lt (unusedFd_pos _), unusedFd_notMem _⟩)
    · exact Or.inl (by simp [syscalls, hp])
  read_length_le := by
    intro log fd n bytes hr
    obtain ⟨all, -, rfl⟩ := Option.map_eq_some_iff.mp hr
    exact List.length_take_le _ _
  readFile_length_le := by
    intro log fd n bytes hr
    obtain rfl := Option.some.inj hr
    exact List.length_take_le _ _
  write_le log fd bytes := by
    by_cases hr : h.refuses bytes
    · simp only [syscalls, hr, if_true]
      omega
    · simp only [syscalls, hr, Bool.false_eq_true, if_false]
      omega
  realpath_canonical := by
    intro log path r hr
    obtain ⟨n, -, rfl⟩ := Option.map_eq_some_iff.mp hr
    refine ⟨⟨n.components, fun c hc => (n.valid c hc).1, rfl⟩, fun h0 => ?_⟩
    rcases Path.mem_render h0 with h1 | ⟨c, hc, h1⟩
    · exact absurd h1 (by decide)
    · exact (n.valid c hc).2 h1

/-- The state in which `main` reaches its loop. -/
def start (os : Os) (argv : Argv) : St := (mainStart argv os St.zero).2

/-- The state after `n` calls of `VSFTPServerHandler`. -/
def run (os : Os) : ℕ → St → St
  | 0, s => s
  | n + 1, s => run os n (serverHandler os s).2

/-- The state after one more call. -/
theorem run_succ {os : Os} : ∀ {n : ℕ} {s : St}, run os (n + 1) s
    = (serverHandler os (run os n s)).2 := by
  intro n
  induction n with
  | zero => exact fun {s} => rfl
  | succ n ih => exact fun {s} => ih

/-- The first `n` calls of `VSFTPServerHandler` return zero. -/
def goesOn (os : Os) : ℕ → St → Bool
  | 0, _ => true
  | n + 1, s => (serverHandler os s).1 = some 0 && goesOn os n (serverHandler os s).2

/-- `main` reaches its loop, and the first `n` calls in it return zero. -/
def lasts (os : Os) (argv : Argv) (n : ℕ) : Bool :=
  (mainStart argv os St.zero).1 = some 0 && goesOn os n (start os argv)

theorem reach_run {os : Os} {init : St → Prop} : ∀ {n : ℕ} {s : St}, Reach init (Turn os) s →
    goesOn os n s = true → Reach init (Turn os) (run os n s) := by
  intro n
  induction n with
  | zero => exact fun h _ => h
  | succ n ih =>
    intro s h hn
    simp only [goesOn, Bool.and_eq_true, decide_eq_true_eq] at hn
    exact ih (.step h (Prod.ext hn.1 rfl)) hn.2

/-- **The states of a run on a host are reachable.** -/
theorem reachable_run {os : Os} {argv : Argv} {n : ℕ} (h : lasts os argv n = true) :
    Reachable os argv (run os n (start os argv)) := by
  simp only [lasts, Bool.and_eq_true, decide_eq_true_eq] at h
  exact reach_run (.start (Prod.ext h.1 rfl)) h.2

/-- **The states of a run are reachable by turns that meet a condition**, if those the turns start
in meet it. -/
theorem reachableBy_run {os : Os} {argv : Argv} {C : St → Prop} {n : ℕ}
    (h : lasts os argv n = true) (hC : ∀ k < n, C (run os k (start os argv))) :
    ReachableBy os argv C (run os n (start os argv)) := by
  simp only [lasts, Bool.and_eq_true, decide_eq_true_eq] at h
  have hrun : ∀ {n : ℕ} {s : St}, ReachableBy os argv C s → goesOn os n s = true →
      (∀ k < n, C (run os k s)) → ReachableBy os argv C (run os n s) := by
    intro n
    induction n with
    | zero => exact fun h _ _ => h
    | succ n ih =>
      intro s h hn hC
      simp only [goesOn, Bool.and_eq_true, decide_eq_true_eq] at hn
      have hs := Reach.step h ⟨hC 0 (Nat.succ_pos n), Prod.ext hn.1 rfl⟩
      exact ih hs hn.2 fun k hk => hC (k + 1) (Nat.succ_lt_succ hk)
  exact hrun (.start (Prod.ext h.1 rfl)) h.2 hC

/-- Memory with which the program does something else, if there is any. -/
noncomputable def worst {α : Type} (os : Os) (m : ServerM α) (s : St) : Memory :=
  @Classical.epsilon Memory ⟨.blank⟩ fun memory => m (os.holding memory) s ≠ m os s

/-- **A program is determined** if that memory does not change what it does.  So one run decides
it. -/
theorem determined_of_worst {α : Type} {os : Os} {m : ServerM α} {s : St}
    (h : m (os.holding (worst os m s)) s = m os s) : Determined os m s := by
  intro memory
  by_contra hne
  have hworst : m (os.holding (worst os m s)) s ≠ m os s :=
    Classical.epsilon_spec (p := fun memory => m (os.holding memory) s ≠ m os s) ⟨memory, hne⟩
  exact hworst h

/-- An entry by its path. -/
def node (components : List String) (kind : FileKind) (content : List Byte)
    (valid : ∀ c ∈ components.map ascii, Path.IsName (47 : Byte) c ∧ NoNul c) : Node :=
  ⟨components.map ascii, [], kind, content, valid⟩

/-- The command line `vsftp 127.0.0.1 2121 /srv`. -/
def argv : Argv := ⟨ascii "127.0.0.1", ascii "2121", ascii "/srv"⟩

/-- The directory `/srv`. -/
def srv : Node := node ["srv"] .dir [] (by decide)

/-- The directory `/srv/docs`. -/
def docs : Node := node ["srv", "docs"] .dir [] (by decide)

/-- The file `/srv/a` has a valid path. -/
theorem valid_a : ∀ c ∈ ["srv", "a"].map ascii, Path.IsName (47 : Byte) c ∧ NoNul c := by decide

/-- The file `/srv/f` has a valid path. -/
theorem valid_f : ∀ c ∈ ["srv", "f"].map ascii, Path.IsName (47 : Byte) c ∧ NoNul c := by decide

/-- A machine with nothing but this directory, and a client that hangs up. -/
def plain : Host := { nodes := [srv] }

end Host

end VsFtp
