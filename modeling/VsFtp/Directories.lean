import VsFtp.Host
import VsFtp.Invariants
import VsFtp.Printing

/-!
# Which directories are entered and listed

A directory is entered or listed if its path passes the root test, which compares texts:
a path passes if the root path is a prefix of it.  That is the tree of the root, and the
paths beside it whose name begins with the root's name.

## Main definitions

* `PutToTest` — a path resolves to a directory, which is then put to the root test.
* `Tests` — the paths that are put to the root test in a turn.
* `TestsNoSibling` — none of them is such a path beside the root, and a working
  directory that is listed is printed as it is.
* `Met` — a client has connected.

## Main results

* `rootTest_iff`, `rootTest_sound_iff` — what the root test accepts, and for which paths
  this is the tree.
* `directories_confined` — **in a run in which no path beside the root is tested, the
  working directory and all directories that are listed are in the root's tree.**
* `sibling_entered` — `CWD ../srv2` is accepted with the root `/srv`.
-/

namespace VsFtp

open CString Prog

variable {os : Os} {s s' : St} {argv : Argv} {p r root : List Byte}

/-! ### The root test -/

/-- **The root test accepts the tree and the paths beside the root** that begin with its
text. -/
theorem rootTest_iff {d : ServerData} (hd : d.rootPathLen = d.rootPath.length)
    (hp : Path.Canonical (47 : Byte) p) : absPathIsNotAboveRootPath d p p.length = 0 ↔
      Path.InTree (47 : Byte) d.rootPath p ∨ Path.Sibling (47 : Byte) d.rootPath p := by
  have htest := absPathIsNotAboveRootPath_eq_zero_iff hd hp.length_pos []
  rw [List.append_nil] at htest
  exact htest.trans (Path.prefix_iff hp.sep_isPrefix)

/-- The root test decides membership of the tree exactly for the paths that are not beside the
root. -/
theorem rootTest_sound_iff {d : ServerData} (hd : d.rootPathLen = d.rootPath.length)
    (hp : Path.Canonical (47 : Byte) p) : (absPathIsNotAboveRootPath d p p.length = 0 ↔
      Path.InTree (47 : Byte) d.rootPath p) ↔ ¬ Path.Sibling (47 : Byte) d.rootPath p := by
  rw [rootTest_iff hd hp]
  constructor
  · intro h hsib
    exact Path.not_inTree_of_sibling hsib (h.mp (Or.inr hsib))
  · exact fun hsib => ⟨fun h => h.resolve_right hsib, Or.inl⟩

/-- A path that passes the test in its buffer is in the tree, unless it is beside the
root. -/
theorem inTree_of_rootTest {d : ServerData} (hd : d.rootPathLen = d.rootPath.length)
    (hp : Path.Canonical (47 : Byte) p) (hlen : p.length < pathLenMax)
    (h : absPathIsNotAboveRootPath d (strncpy [] 0 p pathLenMax) p.length = 0)
    (hsib : ¬ Path.Sibling (47 : Byte) d.rootPath p) : Path.InTree (47 : Byte) d.rootPath p := by
  rw [strncpy_zero hlen.le, List.append_assoc,
    absPathIsNotAboveRootPath_eq_zero_iff hd hp.length_pos] at h
  exact ((Path.prefix_iff hp.sep_isPrefix).mp h).resolve_right hsib

/-! ### Turns -/

/-- Printing the working directory does not end the process, if `VSFTPServerGetCwd` prints it at
all. -/
def GetsCwd (os : Os) (s : St) : Prop :=
  0 < s.data.cwdLen ∧ s.data.cwdLen < pathLenMax → ¬ PrintKills os s

/-- The path resolves to `r`, which fits its buffer and is taken for a directory: that is what is
put to the root test. -/
structure PutToTest (os : Os) (log : Log) (path r : List Byte) : Prop where
  resolved : os.realpath log path = some r
  length_lt : r.length < pathLenMax
  isDir : reportedKind os (.realpath path (some r) :: log) r = .dir

/-- The paths that are put to the root test in a turn: what the root path resolves to
when the server starts and when a client is accepted, and what the arguments of `CWD` and
`NLST` resolve to.  `CWD` resolves its path twice, and `NLST` gets the working directory first. -/
inductive Tests (os : Os) (s : St) : List Byte → Prop
  | starting {r : List Byte} (hn : s.data.isServerSocketCreated = false)
      (hgets : GetsCwd os ⟨s.data.unstarted, s.log⟩)
      (hr : PutToTest os s.log s.data.rootPath r) : Tests os s r
  | connecting {r : List Byte} (hcreated : s.data.isServerSocketCreated = true)
      (hn : s.data.isConnected = false) (ha : 0 ≤ os.accept s.log s.data.serverSock)
      (hgets : GetsCwd os ⟨acceptedData os s, acceptedLog os s⟩)
      (hr : PutToTest os (acceptedLog os s) s.data.rootPath r) : Tests os s r
  | entering {args p q r : List Byte} {len : ℕ} {s1 : St} (hcall : Called os s .cwd args len s1)
      (hrel : IsRelative os s1 args → GetsCwd os s1) (hp : argTarget os s1 args len = some p)
      (hq : os.realpath s1.log p = some q) (hlen : q.length < pathLenMax)
      (hgets : GetsCwd os ⟨s1.data, .realpath p (some q) :: s1.log⟩)
      (hr : PutToTest os (.realpath p (some q) :: s1.log) q r) : Tests os s r
  | listing {args p r : List Byte} {len : ℕ} {s1 : St} (hcall : Called os s .nlst args len s1)
      (hgets : GetsCwd os s1) (hfits : CwdFits os s1) (hp : argTarget os s1 args len = some p)
      (hr : PutToTest os s1.log p r) : Tests os s r

/-- No path beside the root is tested in the turn, and if the working directory is
listed, it is printed as it is. -/
structure TestsNoSibling (os : Os) (s : St) : Prop where
  tested : ∀ r, Tests os s r → ¬ Path.Sibling (47 : Byte) s.data.rootPath r
  printed : ∀ args s1, Called os s .nlst args 0 s1 →
    formatText s.data.cwd s.data.cwdLen = some s.data.cwd

/-- A client has connected. -/
def Met (log : Log) : Prop := ∃ fd r, .accept .server fd r ∈ log ∧ 0 ≤ r

/-- Only directories in the root's tree were opened. -/
def ListsInTree (root : List Byte) (log : Log) : Prop :=
  ∀ path d, .opendir path d ∈ log → Path.InTree (47 : Byte) root path

theorem ListsInTree.adds {log log' : Log} {ks : List Kind} (h : ListsInTree root log)
    (ha : Adds ks log log') (hk : .dir ∉ ks) : ListsInTree root log' :=
  fun path d he => h path d (ha.mem_of_kind he hk)

theorem Enterable.putToTest {log : Log} {dir : List Byte} {d : ServerData}
    (h : Enterable os log dir d r) : PutToTest os log dir r := ⟨h.1, h.2.1, h.2.2.1⟩

theorem Enterable.inTree {log : Log} {dir : List Byte} {d : ServerData}
    (h : Enterable os log dir d r) (hd : Configured d)
    (hsib : ¬ Path.Sibling (47 : Byte) d.rootPath r) : Path.InTree (47 : Byte) d.rootPath r := by
  obtain ⟨ha, hlen, -, htest⟩ := h
  exact inTree_of_rootTest hd.length_eq (os.realpath_canonical ha).1 hlen htest hsib

/-- A directory that is entered is in the tree. -/
theorem Entering.inTree {log : Log} {dir : List Byte} {d d' : ServerData} {L : List Event}
    (h : Entering os log dir d 0 d' L) (hd : Configured d)
    (hsib : ∀ r, PutToTest os log dir r → ¬ Path.Sibling (47 : Byte) d.rootPath r) :
    Path.InTree (47 : Byte) d.rootPath d'.cwd := by
  generalize h0 : (0 : Int) = retval at h
  cases h with
  | failed hr => exact absurd h0.symm hr
  | entered he => exact he.inTree hd (hsib _ he.putToTest)

/-! ### The handlers -/

/-- The listing of a directory opens only that directory. -/
theorem Transferred.opendir {r0 r : Int} {lpath path : List Byte} {d : Option Dir}
    (h : Transferred os (listing lpath) r0 s r s') (he : .opendir path d ∈ s'.log) :
    r0 = 0 ∧ path = lpath ∨ .opendir path d ∈ s.log := by
  cases h with
  | mk hT hX hY =>
    simp only [List.mem_cons, List.mem_append, reduceCtorEq, false_or] at he
    rcases he with he | he | he | he
    · exact absurd (hY.ofKind _ he) (by simp [Event.kind])
    · exact absurd (hX.ofKind _ he) (by simp [Event.kind])
    · refine Or.inl ?_
      have hP : ∀ {c r P}, Announces c r P → .opendir path d ∈ P → False := fun hP he =>
        absurd (hP.ofKind _ he) (by simp [Event.kind])
      cases hT with
      | skipped => simp at he
      | unconnected hA => exact absurd (hA.ofKind _ he) (by simp [Event.kind])
      | unannounced _ _ hA =>
        simp only [List.mem_append, List.mem_singleton, reduceCtorEq, or_false] at he
        exact (hP hA he).elim
      | transferred _ _ hA hD =>
        simp only [List.mem_append, List.mem_singleton, reduceCtorEq, or_false] at he
        rcases he with he | he
        · exact ⟨rfl, hD _ he⟩
        · exact (hP hA he).elim
    · exact Or.inr he

/-- **What a handler enters and lists** is in the tree, if what it tests is not beside
the root. -/
theorem Outcome.inTree {args : List Byte} {len : ℕ} {c : Command} {retval : Int}
    (hd : Configured s.data) (hh : Homed s.data)
    (hcwd : Path.InTree (47 : Byte) s.data.rootPath s.data.cwd)
    (hl : ListsInTree s.data.rootPath s.log)
    (henter : c = .cwd → ∀ p q r, argTarget os s args len = some p →
      os.realpath s.log p = some q → q.length < pathLenMax →
        PutToTest os (.realpath p (some q) :: s.log) q r →
          ¬ Path.Sibling (47 : Byte) s.data.rootPath r)
    (hlist : c = .nlst → CwdFits os s → ∀ p r, argTarget os s args len = some p →
      PutToTest os s.log p r → ¬ Path.Sibling (47 : Byte) s.data.rootPath r)
    (hprint : c = .nlst → len = 0 → formatText s.data.cwd s.data.cwdLen = some s.data.cwd)
    (h : Outcome os s args len c retval s') :
    Path.InTree (47 : Byte) s.data.rootPath s'.data.cwd ∧ ListsInTree s.data.rootPath s'.log := by
  have hadds : .dir ∉ (.lookup :: .write :: c.kinds : List Kind) →
      ListsInTree s.data.rootPath s'.log := hl.adds h.adds
  cases h with
  | answered _ h =>
    exact ⟨by cases h; exact hcwd, hadds (by cases c <;> first | decide | contradiction)⟩
  | rejected _ h hdis => exact ⟨by cases h; cases hdis; exact hcwd, hadds (by decide)⟩
  | moved h =>
    refine ⟨?_, hadds (by decide)⟩
    cases h with
    | stayed => exact hcwd
    | moved hp ha hd' _ hlen => exact hd'.inTree hd fun r hr => henter rfl _ _ r hp ha hlen hr
  | sized h => exact ⟨by cases h <;> exact hcwd, hadds (by decide)⟩
  | passive h => exact ⟨by cases h; exact hcwd, hadds (by decide)⟩
  | sent _ h => exact ⟨by cases h; exact hcwd, hadds (by decide)⟩
  | @listed retval r0 s' lpath L hL h =>
    refine ⟨by cases h; exact hcwd, fun path d he => ?_⟩
    rcases h.opendir he with ⟨h0, rfl⟩ | he
    · cases hL with
      | failed hne => exact absurd h0 hne
      | current hlen =>
        -- the working directory itself
        have htext : cwdText os s = s.data.cwd := by
          rw [cwdText, hprint rfl hlen, Option.getD_some]
        rw [htext, cstr_of_noNul hh.noNul]
        exact hcwd
      | requested hp ha hlen hkind htest hfits =>
        exact inTree_of_rootTest hd.length_eq (os.realpath_canonical ha).1 hlen htest
          (hlist rfl hfits _ _ hp ⟨ha, hlen, hkind⟩)
    · rcases List.mem_append.mp he with he | he
      · exact absurd (hL.lookups.ofKind _ he) (by simp [Event.kind])
      · exact hl path d he

/-! ### Runs -/

/-- **What holds in a run that tests no path beside the root.** -/
structure InRoot (s : St) : Prop where
  cwd : Met s.log ∨ s.data.isConnected = true → Path.InTree (47 : Byte) s.data.rootPath s.data.cwd
  lists : ListsInTree s.data.rootPath s.log

theorem Met.of_adds {log log' : Log} {ks : List Kind} (ha : Adds ks log log') (hk : .accept ∉ ks)
    (h : Met log') : Met log := by
  obtain ⟨fd, r, he, hr⟩ := h
  exact ⟨fd, r, ha.mem_of_kind he hk, hr⟩

/-- An `accept` that fails meets nobody. -/
theorem Met.of_acceptedLog (ha : os.accept s.log s.data.serverSock < 0)
    (h : Met (acceptedLog os s)) : Met s.log := by
  obtain ⟨fd, r, he, hr⟩ := h
  rcases List.mem_cons.mp he with he | he
  · obtain ⟨-, -, rfl⟩ := Event.accept.inj he
    omega
  · exact ⟨fd, r, he, hr⟩

namespace InRoot

/-- In a turn that handles a line. -/
theorem line {bytes : List Byte} {r : Int} {s2 : St} (h : InRoot s) (hi : Sound os s)
    (hhome : Homed s.data) (ht : TestsNoSibling os s) (hlives : ¬ Dies os serverHandler s)
    (hc : s.data.isConnected = true) (hread : received os s = some bytes) (hline : IsLine bytes)
    (hp : Parsing os (lineState s bytes) (lineBuffer bytes) (bytes.length - 2) r s2)
    (hh : Handled s2 r s') :
    Path.InTree (47 : Byte) s.data.rootPath s'.data.cwd ∧ ListsInTree s.data.rootPath s'.log := by
  have hl := h.lists.adds (lineState_adds bytes) (by decide)
  have hcwd : s'.data.cwd = s2.data.cwd := by cases hh <;> rfl
  have hs2 : Path.InTree (47 : Byte) s.data.rootPath s2.data.cwd ∧
      ListsInTree s.data.rootPath s2.log := by
    cases hp with
    | @known name c _ _ hfind ho =>
      have hcall := Called.mk (hi.created hc) hc hread hline hfind
      refine Outcome.inTree (s := calledState (lineState s bytes) _ _ name c) hi.configured hhome
        (h.cwd (Or.inr hc)) (hl.adds (calledState_adds _ _ name c) (by decide)) ?_ ?_ ?_ ho
      · rintro rfl p q r hp hq hlen hr
        refine ht.tested r (.entering hcall (fun hrel hcwd hk => hlives ?_) hp hq hlen
          (fun hcwd hk => hlives ?_) hr)
        · exact hcall.dies_handler
            (commandHandlerCwd_dies_relative hk hcwd (argTarget_pos hp) hrel)
        · exact hcall.dies_handler (commandHandlerCwd_dies_entering hp hq hlen hk hcwd)
      · rintro rfl hfits p r hp hr
        refine ht.tested r (.listing hcall (fun hcwd hk => hlives ?_) hfits hp hr)
        exact hcall.dies_handler (commandHandlerNlst_dies hk hcwd)
      · intro hn hlen
        subst hn
        rw [hlen] at hcall
        exact ht.printed _ _ hcall
    | unknown =>
      exact ⟨h.cwd (Or.inr hc), hl.adds (unknown_adds _ _ _) (by decide)⟩
  exact ⟨hcwd ▸ hs2.1, hs2.2.adds hh.adds (by decide)⟩

/-- No step lists a directory outside the tree. -/
theorem lists_step {r : Int} (h : InRoot s) (hi : Sound os s)
    (hhome : s.data.isConnected = true → Homed s.data) (ht : TestsNoSibling os s)
    (hlives : ¬ Dies os serverHandler s) (hs : Step os s r s') :
    ListsInTree s.data.rootPath s'.log := by
  cases hs with
  | starting _ hs => exact h.lists.adds hs.adds (by decide)
  | waiting _ _ hs => exact h.lists.adds hs.adds (by decide)
  | conversing _ hc hs =>
    cases hs with
    | line hread hline hp hh => exact (h.line hi (hhome hc) ht hlives hc hread hline hp hh).2
    | closed _ hd =>
      exact (h.lists.adds (storedLog_adds _ _ _) (by decide)).adds hd.adds (by decide)
    | ignored => exact h.lists.adds (.mk (examined_ofKind _ _)) (by decide)
    | stopped _ _ _ _ hst =>
      exact (h.lists.adds (.mk (examined_ofKind _ _)) (by decide)).adds hst.adds (by decide)

/-- **A step that returns zero stays in the tree.** -/
theorem cwd_step (h : InRoot s) (hi : Sound os s)
    (hhome : s.data.isConnected = true → Homed s.data) (ht : TestsNoSibling os s)
    (hlives : ¬ Dies os serverHandler s) (hs : Step os s 0 s')
    (hm : Met s'.log ∨ s'.data.isConnected = true) :
    Path.InTree (47 : Byte) s.data.rootPath s'.data.cwd := by
  generalize h0 : (0 : Int) = r at hs
  cases hs with
  | starting hn hs =>
    cases hs with
    | failed _ hr => exact absurd h0.symm hr
    | uncreated _ _ hr => exact absurd h0.symm hr
    | started hd =>
      have hconf : Configured s.data.unstarted := hi.configured.of_config rfl
      refine hd.inTree hconf fun r hr => ht.tested r (.starting hn (fun hcwd hk => hlives ?_) hr)
      exact serverHandler_dies_starting hn hk hcwd
  | waiting hcreated hn hs =>
    have hnot : ∀ {b : Bool}, b = false → ¬ b = true := fun h1 h2 =>
      Bool.false_ne_true (h1.symm.trans h2)
    cases hs with
    | idle ha => exact h.cwd (Or.inl (.of_acceptedLog ha (hm.resolve_right (hnot hn))))
      -- no client was accepted, so the directory was in the root before
    | stopped ha _ hst =>
      have hmet : Met (acceptedLog os s) := by
        refine (hm.resolve_right ?_).of_adds hst.adds (by decide)
        cases hst with
        | mk => exact Bool.false_ne_true
      have hcwd : s'.data.cwd = s.data.cwd := by cases hst; rfl
      rw [hcwd]
      exact h.cwd (Or.inl (.of_acceptedLog ha hmet))
    | homeless _ _ hr => exact absurd h0.symm hr
    | ungreeted => exact absurd h0 (by decide)
    | connected ha hd =>
      have hconf : Configured (acceptedData os s) := hi.configured.of_config rfl
      refine hd.inTree hconf fun r hr => ht.tested r
        (.connecting hcreated hn ha (fun hcwd hk => hlives ?_) hr)
      exact serverHandler_dies_connecting hcreated hn ha hk hcwd
  | conversing _ hc hs =>
    have hcwd := h.cwd (Or.inr hc)
    cases hs with
    | line hread hline hp hh => exact (h.line hi (hhome hc) ht hlives hc hread hline hp hh).1
    | closed _ hd => cases hd; exact hcwd
    | ignored => exact hcwd
    | stopped _ _ _ _ hst => cases hst; exact hcwd

end InRoot

theorem ReachableBy.inRoot (h : ReachableBy os argv (TestsNoSibling os) s) : InRoot s := by
  refine h.invariant ?_ ?_
  · intro s h0
    obtain ⟨hf, hL⟩ := started_spec h0
    refine ⟨fun hm => ?_, fun path d he => absurd (hL.ofKind _ he) (by simp [Event.kind])⟩
    rcases hm with ⟨fd, r, he, -⟩ | hc
    · exact absurd (hL.ofKind _ he) (by simp [Event.kind])
    · exact absurd (hf.connected.symm.trans hc) Bool.false_ne_true
  · rintro a b hr h ⟨ht, hturn⟩
    have hra := ReachableBy.reachable hr
    have hs := hra.step hturn
    have hlives : ¬ Dies os serverHandler a := fun hd => hd.run_ne _ _ hturn
    have hroot : b.data.rootPath = a.data.rootPath := congrArg (·.2.1) hs.config
    constructor
    · rw [hroot]
      exact h.cwd_step hra.sound hra.homed ht hlives hs
    · rw [hroot]
      exact h.lists_step hra.sound hra.homed ht hlives hs

/-- **In a run in which no path beside the root is tested, the working directory is in
the root's tree** from the first connection on, and so is every directory that is
listed, in the turn that comes next too.  The root test decides this exactly for the
paths that are not beside the root. -/
theorem directories_confined (h : ReachableBy os argv (TestsNoSibling os) s)
    (ht : TestsNoSibling os s) :
    (Met s.log ∨ s.data.isConnected = true →
      Path.InTree (47 : Byte) s.data.rootPath s.data.cwd) ∧
    ListsInTree s.data.rootPath (serverHandler os s).2.log ∧
    ∀ p, Path.Canonical (47 : Byte) p → ((absPathIsNotAboveRootPath s.data p p.length = 0 ↔
      Path.InTree (47 : Byte) s.data.rootPath p) ↔
        ¬ Path.Sibling (47 : Byte) s.data.rootPath p) := by
  have hr := h.reachable
  have hin := h.inRoot
  refine ⟨hin.cwd, ?_, fun p hp => rootTest_sound_iff hr.sound.configured.length_eq hp⟩
  rcases hrun : serverHandler os s with ⟨_ | r, s'⟩
  · exact hin.lists.adds (Killing.of_run hr.sound.configured hrun).adds (by decide)
  · have hlives : ¬ Dies os serverHandler s := fun hd => hd.run_ne _ _ hrun
    exact hin.lists_step hr.sound hr.homed ht hlives (Step.of_run hr.sound.configured hrun)

/-- A machine on which the client enters `/srv/docs`, lists it and then the root. -/
def treeHost : Host :=
  { nodes := [Host.srv, Host.docs],
    reads := ["CWD docs", "PASV", "NLST", "PASV", "NLST /"].map fun l => some (ascii l ++ crlf) }

/-- The directory is entered, and both directories are listed. -/
theorem directories_confined_docs :
    let s := Host.run treeHost.os 6 (Host.start treeHost.os Host.argv)
    s.data.cwd = ascii "/srv/docs" ∧ Path.InTree (47 : Byte) (ascii "/srv") s.data.cwd ∧
      ListsInTree (ascii "/srv") (serverHandler treeHost.os s).2.log := by
  -- there are only the root and a directory below it to resolve anything to
  have htree : ∀ {log : Log} {p r : List Byte}, PutToTest treeHost.os log p r →
      ¬ Path.Sibling (47 : Byte) (ascii "/srv") r := by
    intro log p r hr hsib
    obtain ⟨n, hn, rfl⟩ := Option.map_eq_some_iff.mp hr.resolved
    rcases List.mem_pair.mp (List.mem_of_find?_eq_some hn) with rfl | rfl <;>
      exact Path.not_inTree_of_sibling hsib (by decide)
  have hroot : ∀ n < 7, (Host.run treeHost.os n
      (Host.start treeHost.os Host.argv)).data.rootPath = ascii "/srv" := by decide +kernel
  have hprint : ∀ n < 7, let d := (Host.run treeHost.os n (Host.start treeHost.os Host.argv)).data
      formatText d.cwd d.cwdLen = some d.cwd := by decide +kernel
  have hfree : ∀ n < 7, TestsNoSibling treeHost.os
      (Host.run treeHost.os n (Host.start treeHost.os Host.argv)) := by
    intro n hn
    refine ⟨fun r hr => ?_, fun _ _ _ => hprint n hn⟩
    rw [hroot n hn]
    cases hr with
    | starting _ _ hr => exact htree hr
    | connecting _ _ _ _ hr => exact htree hr
    | entering _ _ _ _ _ _ hr => exact htree hr
    | listing _ _ _ _ hr => exact htree hr
  have hrun := @Host.reachableBy_run treeHost.os Host.argv (TestsNoSibling treeHost.os) 6
    (by decide +kernel) fun k hk => hfree k (by omega)
  have h := directories_confined hrun (hfree 6 (by decide))
  rw [hroot 6 (by decide)] at h
  exact ⟨by decide +kernel, h.1 (Or.inr (by decide +kernel)), h.2.1⟩

/-- A machine with the directory `/srv2` beside the root path `/srv`. -/
def siblingHost : Host :=
  { nodes := [Host.srv, { Host.node ["srv2"] .dir [] (by decide) with
      names := [ascii "/srv/../srv2"] }],
    reads := [some (ascii "CWD ../srv2" ++ crlf)] }

/-- **`CWD ../srv2` leaves the root's tree**: it is accepted with the root `/srv`. -/
theorem sibling_entered :
    let s := Host.run siblingHost.os 3 (Host.start siblingHost.os Host.argv)
    Reachable siblingHost.os Host.argv s ∧ s.data.isConnected = true ∧
      s.data.rootPath = ascii "/srv" ∧ s.data.cwd = ascii "/srv2" ∧
      ¬ Path.InTree (47 : Byte) s.data.rootPath s.data.cwd := by
  refine ⟨Host.reachable_run (by decide +kernel), ?_, ?_, ?_, ?_⟩ <;> decide +kernel

end VsFtp
