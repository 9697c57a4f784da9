import VsFtp.Host
import VsFtp.Parts

/-!
# Type tests and leftover memory

`VSFTPFilesystemIsDir` and `VSFTPFilesystemIsFile` do not look at the result of `stat`.  When it
fails they test the mode that an uninitialised `struct stat` happens to have.  Two systems that
differ only in what such a record contains show whether anything depends on that.

## Main definitions

* `Os.withLeftover` — a system with other contents of uninitialised memory.
* `Reliable` — a type test that does not depend on them.
* `Blind`, `SameRun` — a program that does not use leftover memory, unless a `stat` fails.

## Main results

* `blind_filesystemHasKind`, `blind_pervades` — the type tests, and with them all functions of the
  server, are such programs.
* `reachable_withLeftover` — a run in which no `stat` fails is the same with other contents.
* `type_tests_reliable_iff` — **a type test is reliable if and only if its `stat` succeeds.**
* `missing_root_accepted` — a root path that does not exist, and is a directory.
-/

namespace VsFtp

open CString Prog

variable {os : Os} {s : St} {g : Log → Stat}

/-- The system with other contents of uninitialised memory. -/
def Os.withLeftover (os : Os) (g : Log → Stat) : Os := { os with leftover := g }

@[simp] theorem withLeftover_stat : (os.withLeftover g).stat = os.stat := rfl

/-- The record of a `stat` that failed. -/
def Event.statFailed : Event → Prop
  | .stat _ none => True
  | _ => False

/-! ### A type test -/

/-- The answer of a type test is the same with any contents of uninitialised memory, and it is zero
only if `stat` has reported a file of that kind. -/
structure Reliable (os : Os) (s : St) (kind : FileKind) (path : List Byte) (len : ℕ) : Prop where
  same : ∀ g g', (filesystemHasKind kind path len (os.withLeftover g) s).1
    = (filesystemHasKind kind path len (os.withLeftover g') s).1
  reported : ∀ g, (filesystemHasKind kind path len (os.withLeftover g) s).1 = some 0 →
    ∃ st, os.stat s.log path = some st ∧ st.kind = kind

/-- The run of a type test. -/
theorem run_filesystemHasKind {kind : FileKind} {path : List Byte} {len : ℕ} (hlen : 0 < len) :
    filesystemHasKind kind path len os s
      = (some (if ((os.stat s.log path).getD (os.leftover s.log)).kind = kind then 0 else -1),
        ⟨s.data, .stat path (os.stat s.log path) :: s.log⟩) := by
  unfold filesystemHasKind
  rw [if_pos hlen]
  rfl

/-- Without a path there is nothing to test. -/
theorem filesystemHasKind_of_empty {kind : FileKind} {path : List Byte} {len : ℕ}
    (hlen : ¬ 0 < len) :
    (filesystemHasKind kind path len : ServerM Int) = pure (-1) := by
  unfold filesystemHasKind
  exact if_neg hlen

/-- **A type test is reliable if and only if its `stat` succeeds**, or there is no path to test. -/
theorem reliable_iff {kind : FileKind} {path : List Byte} {len : ℕ} :
    Reliable os s kind path len ↔ len = 0 ∨ os.stat s.log path ≠ none := by
  by_cases hlen : 0 < len
  · rw [or_iff_right (by omega)]
    constructor
    · intro h hnone
      -- a record of the right kind happens to be left on the stack
      have hzero : (filesystemHasKind kind path len
          (os.withLeftover fun _ => .empty kind) s).1 = some 0 := by
        rw [run_filesystemHasKind hlen, withLeftover_stat, hnone, Option.getD_none]
        exact congrArg some (if_pos rfl)
      obtain ⟨st, hst, -⟩ := h.reported _ hzero
      exact absurd (hnone.symm.trans hst) (by simp)
    · intro h
      obtain ⟨st, hst⟩ := Option.ne_none_iff_exists'.mp h
      have hanswer : ∀ g, (filesystemHasKind kind path len (os.withLeftover g) s).1
          = some (if st.kind = kind then 0 else -1) := by
        intro g
        rw [run_filesystemHasKind hlen, withLeftover_stat, hst, Option.getD_some]
      refine ⟨fun g g' => (hanswer g).trans (hanswer g').symm, fun g h0 => ⟨st, hst, ?_⟩⟩
      rw [hanswer] at h0
      by_contra hne
      rw [if_neg hne] at h0
      exact absurd (Option.some.inj h0) (by decide)
  · have hanswer : ∀ g, (filesystemHasKind kind path len (os.withLeftover g) s).1 = some (-1) := by
      intro g
      rw [filesystemHasKind_of_empty hlen]
      rfl
    refine iff_of_true ⟨fun g g' => (hanswer g).trans (hanswer g').symm, fun g h0 => ?_⟩
      (Or.inl (by omega))
    exact absurd ((hanswer g).symm.trans h0) (by decide)

/-! ### Programs that do not use leftover memory -/

/-- In a run in which no `stat` fails the program does not use leftover memory. -/
abbrev Blind {α : Type} (os : Os) (g : Log → Stat) (m : ServerM α) : Prop :=
  Follows Event.statFailed os (os.withLeftover g) m

/-- **A type test whose `stat` succeeds** does not use leftover memory. -/
theorem blind_filesystemHasKind {kind : FileKind} {path : List Byte} {len : ℕ} :
    Blind os g (filesystemHasKind kind path len) := by
  by_cases hlen : 0 < len
  · refine fun s => ⟨[.stat path (os.stat s.log path)], ?_, fun hgood => ?_⟩
    · rw [run_filesystemHasKind hlen]
      rfl
    · rw [run_filesystemHasKind hlen, run_filesystemHasKind hlen, withLeftover_stat]
      cases hst : os.stat s.log path with
      | none =>
        rw [hst] at hgood
        exact absurd trivial (hgood _ (List.mem_singleton_self _))
      | some st => rfl
  · rw [filesystemHasKind_of_empty hlen]
    exact .pure _

/-- A plain call does not depend on what is in memory. -/
theorem Plain.blind {α : Type} {m : ServerM α} (h : Plain α m) : Blind os g m := by
  cases h with
  | getData => exact .getData
  | stop => exact .stop
  | readdir d entry => exact .emit _
  | closedir d => exact .emit _
  | behind => exact .peek rfl
  | survives => exact .peek rfl
  | conversion => exact .peek rfl
  | errno => exact .peek rfl
  | _ => exact .call rfl

theorem Acts.blind {α : Type} {m : ServerM α} (h : Acts α m) : Blind os g m := by
  cases h with
  | modifyData f => exact .modifyData f
  | emit e => exact .emit e
  | _ => exact .call rfl

theorem blind_sysReadFile {fd : Int} {size : ℕ} : Blind os g (sysReadFile fd size) := .call rfl

/-- **The server** does not use leftover memory, unless a `stat` fails. -/
theorem blind_pervades : Pervades fun _ m => Blind os g m where
  toModular := Modular.follows
  plain h := h.blind
  hasKind _ _ _ := blind_filesystemHasKind
  acts h := h.blind
  file _ _ _ _ _ := modular_sendfileLoop Modular.follows Plain.blind (fun _ _ => blind_sysReadFile)
    fun who fd bytes => (Acts.write who fd bytes).blind

/-! ### Runs -/

/-- With any other contents of uninitialised memory the run of the program from `s` is the same, if
no `stat` fails in it. -/
def SameRun (os : Os) (m : ServerM Int) (s : St) : Prop :=
  ∀ g M, (m os s).2.log = M ++ s.log → (∀ e ∈ M, ¬ e.statFailed) → m (os.withLeftover g) s = m os s

theorem sameRun {m : ServerM Int} (h : ∀ g, Blind os g m) (s : St) : SameRun os m s :=
  fun g _ hM hgood => (h g).run_eq hM hgood

/-- **A state that is reached without a failing `stat`** is reached with any other contents of
uninitialised memory as well. -/
theorem reachable_withLeftover {argv : Argv} (h : Reachable os argv s)
    (hgood : ∀ e ∈ s.log, ¬ e.statFailed) : Reachable (os.withLeftover g) argv s := by
  induction h with
  | @start s h =>
    have hlog : (mainStart argv os St.zero).2.log = s.log ++ St.zero.log := by
      rw [show mainStart argv os St.zero = (some 0, s) from h]
      exact (List.append_nil _).symm
    exact .start (((blind_pervades.covers.mainStart argv).run_eq hlog hgood).trans h)
  | @step s s' _ h ih =>
    obtain ⟨N, hN, hsame⟩ := (@blind_pervades os g).serverHandler s
    rw [show serverHandler os s = (some 0, s') from h] at hN hsame
    rw [show s'.log = N ++ s.log from hN] at hgood
    exact .step (ih fun e he => hgood e (List.mem_append_right _ he))
      (hsame fun e he => hgood e (List.mem_append_left _ he))

/-- **The type tests.**  A type test gives the same answer with any contents of uninitialised
memory, and zero only for what `stat` has reported, if and only if its `stat` succeeds or there is
no path to test.  What `main`, a handler, a turn and a whole run do is the same with any contents,
if no `stat` fails in it. -/
theorem type_tests_reliable_iff (os : Os) :
    (∀ kind path len s, Reliable os s kind path len ↔ len = 0 ∨ os.stat s.log path ≠ none) ∧
    (∀ argv s, SameRun os (mainStart argv) s) ∧
    (∀ c args len s, SameRun os (commandHandle c args len) s) ∧
    (∀ s, SameRun os serverHandler s) ∧
    ∀ argv s, Reachable os argv s → (∀ e ∈ s.log, ¬ e.statFailed) →
      ∀ g, Reachable (os.withLeftover g) argv s :=
  ⟨fun _ _ _ _ => reliable_iff, fun argv => sameRun fun _ => blind_pervades.covers.mainStart argv,
    fun c args len => sameRun fun _ => blind_pervades.commandHandle c args len,
    sameRun fun _ => blind_pervades.serverHandler,
    fun _ _ h hgood _ => reachable_withLeftover h hgood⟩

/-- A machine on which a directory was tested before. -/
def directoryLeft : Os := Host.plain.os.withLeftover fun _ => .empty .dir

/-- The command line `vsftp 127.0.0.1 2121 /nowhere`. -/
def nowhere : Argv := { Host.argv with rootPath := ascii "/nowhere" }

/-- **A root path that does not exist**, and is a directory if the stack happens to contain the
record of one: `main` goes on to resolve it. -/
theorem missing_root_accepted :
    directoryLeft.stat St.zero.log nowhere.rootPath = none ∧
    (filesystemIsDir nowhere.rootPath 8 directoryLeft St.zero).1 = some 0 ∧
    (filesystemIsDir nowhere.rootPath 8 Host.plain.os St.zero).1 = some (-1) ∧
    .realpath nowhere.rootPath none ∈ (mainStart nowhere directoryLeft St.zero).2.log ∧
    .realpath nowhere.rootPath none ∉ (mainStart nowhere Host.plain.os St.zero).2.log ∧
    ¬ Reliable Host.plain.os St.zero .dir nowhere.rootPath 8 := by
  refine ⟨by decide +kernel, by decide +kernel, by decide +kernel, by decide +kernel,
    by decide +kernel, fun h => ?_⟩
  have hmissing : Host.plain.os.stat St.zero.log nowhere.rootPath = none := by decide +kernel
  exact (reliable_iff.mp h).elim (by decide) fun hst => hst hmissing

end VsFtp
