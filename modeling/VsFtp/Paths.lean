import VsFtp.Server

/-!
# What the path functions do

The functions that turn an argument into a path only look things up: they call
`realpath` and `stat` and leave the server's record alone, except for
`VSFTPServerSetCwd`, which may store a new working directory.  They stop only
when the working directory is printed as a format whose conversions have no
arguments and the process does not survive it.

## Main definitions

* `Lookups` — logs of `realpath` and `stat` calls.
* `Printable`, `Killed` — the working directory can be printed, and where the
  process is killed if it cannot.
* `cwdText`, `argTarget` — what is printed for the working directory, and what an
  argument makes the server resolve.
* `Resolves`, `Enterable` — what a string resolves to, and which directories can be
  entered.
* `Resolving`, `Entering` — the outcomes of the functions that resolve a path, and
  of `VSFTPServerSetCwd`.

## Main results

* `wp_serverGetCwd`, `wp_resolveArg`, `wp_serverSetCwd` — one specification for
  each of them.
* `absPathIsNotAboveRootPath_eq_zero_iff` — the root test compares prefixes.
-/

namespace VsFtp

open CString Prog

/-! ### Lookups -/

/-- `realpath` or `stat`. -/
def Event.isLookup : Event → Bool
  | .realpath _ _ => true
  | .stat _ _ => true
  | _ => false

/-- Only `realpath` and `stat` were called. -/
def Lookups (new : List Event) : Prop := ∀ e ∈ new, e.isLookup = true

theorem Lookups.nil : Lookups [] := by simp [Lookups]

theorem Lookups.cons {e : Event} {L : List Event} (he : e.isLookup = true) (hL : Lookups L) :
    Lookups (e :: L) := by
  simpa [Lookups] using ⟨he, hL⟩

theorem Lookups.append {L L' : List Event} (hL : Lookups L) (hL' : Lookups L') :
    Lookups (L ++ L') := by
  intro e he
  rcases List.mem_append.mp he with he | he
  · exact hL e he
  · exact hL' e he

/-- The working directory can be printed by `VSFTPServerGetCwd`: it has no
conversion that wants an argument, or the process survives printing one. -/
def Printable (os : Os) (d : ServerData) : Prop :=
  (formatText d.cwd d.cwdLen).isSome = true ∨ ∀ log, os.survives log = true

/-- The process was killed by code that started in `s` and only looked things up:
it printed a working directory that cannot be printed. -/
def Killed (os : Os) (s s' : St) : Prop :=
  ¬ Printable os s.data ∧ ∃ L, Lookups L ∧ s' = ⟨s.data, L ++ s.log⟩

variable {os : Os} {s : St}

/-- Code that runs behind some lookups is killed where code before them is. -/
theorem Killed.of_lookups {L : List Event} (hL : Lookups L) {s' : St}
    (h : Killed os ⟨s.data, L ++ s.log⟩ s') : Killed os s s' := by
  obtain ⟨hp, L', hL', rfl⟩ := h
  exact ⟨hp, L' ++ L, hL'.append hL, by simp⟩

/-! ### The working directory -/

/-- What is printed for the working directory. -/
def cwdText (os : Os) (s : St) : List Byte :=
  (formatText s.data.cwd s.data.cwdLen).getD (os.conversion s.log)

/-- Printing the working directory ends the process. -/
def PrintKills (os : Os) (s : St) : Prop :=
  formatText s.data.cwd s.data.cwdLen = none ∧ os.survives s.log = false

theorem PrintKills.killed (h : PrintKills os s) : Killed os s s := by
  refine ⟨?_, [], .nil, rfl⟩
  rintro (hp | hp)
  · simp [h.1] at hp
  · exact absurd (hp s.log) (by simp [h.2])

theorem wp_printFormat {E : St → Prop} (hE : PrintKills os s → E s) :
    wp os (printFormat s.data.cwd s.data.cwdLen : ServerM _) (fun out s' =>
      out = cwdText os s ∧ s' = s) E s := by
  unfold printFormat cwdText
  cases hd : formatText s.data.cwd s.data.cwdLen with
  | some text => exact ⟨rfl, rfl⟩
  | none =>
    refine (wp_bind _ _).mpr ((wp_bind _ _).mpr ?_)
    exact wp_ite (fun _ => ⟨rfl, rfl⟩) (fun hs => hE ⟨hd, Bool.eq_false_iff.mpr hs⟩)

/-- The working directory fits the buffers, as a string and as it is printed. -/
def CwdFits (os : Os) (s : St) : Prop :=
  (0 < s.data.cwdLen ∧ s.data.cwdLen < pathLenMax) ∧ (cwdText os s).length < pathLenMax

instance (os : Os) (s : St) : Decidable (CwdFits os s) := inferInstanceAs (Decidable (_ ∧ _))

/-- The outcome of `VSFTPServerGetCwd`: the directory, as it comes out of being
printed. -/
inductive GotCwd (os : Os) (s : St) : PathOut → Prop
  | failed {buf : List Byte} {len : ℕ} (h : ¬ CwdFits os s) : GotCwd os s ⟨-1, buf, len⟩
  | got (h : CwdFits os s) : GotCwd os s ⟨0, cwdText os s ++ [0], (cwdText os s).length⟩

theorem wp_serverGetCwd {E : St → Prop} (hE : PrintKills os s → E s) :
    wp os (serverGetCwd [] pathLenMax 0) (fun out s' => GotCwd os s out ∧ s' = s) E s := by
  unfold serverGetCwd
  refine (wp_bind _ _).mpr ((wp_getData).mpr ?_)
  refine wp_ite (fun hfits => ?_) (fun hno => ⟨.failed fun h => hno ⟨by decide, h.1⟩, rfl⟩)
  refine wp_seq (wp_printFormat hE) ?_
  rintro _ s' ⟨rfl, rfl⟩
  refine wp_ite (fun hlen => ⟨?_, rfl⟩) (fun hlen => ⟨.failed fun h => hlen h.2, rfl⟩)
  have hbuf : snprintf [] 0 pathLenMax (cwdText os s') = cwdText os s' ++ [0] := by
    rw [snprintf, if_neg (by decide), overwrite_zero, List.drop_nil, List.append_nil,
      List.take_of_length_le (by omega)]
  rw [hbuf]
  exact .got ⟨hfits.2, hlen⟩

/-- A working directory without conversions is got as it is printed. -/
theorem wp_serverGetCwd_text {text : List Byte}
    (hf : formatText s.data.cwd s.data.cwdLen = some text)
    (hpos : 0 < s.data.cwdLen) (hlen : s.data.cwdLen < pathLenMax)
    (hfit : text.length < pathLenMax) {E : St → Prop} :
    wp os (serverGetCwd [] pathLenMax 0)
      (fun out s' => out = ⟨0, text ++ [0], text.length⟩ ∧ s' = s) E s := by
  have htext : cwdText os s = text := by rw [cwdText, hf, Option.getD_some]
  have hno : PrintKills os s → E s := fun h => absurd (hf.symm.trans h.1) (by simp)
  refine wp_mono (wp_serverGetCwd hno) ?_ fun _ h => h
  rintro out s' ⟨hgot, rfl⟩
  cases hgot with
  | failed hno => exact absurd ⟨⟨hpos, hlen⟩, by rw [htext]; exact hfit⟩ hno
  | got => exact ⟨by rw [htext], rfl⟩

/-! ### Resolving a path -/

/-- What `VSFTPFilesystemGetRealPath` has `realpath` resolve, if it gets that far. -/
def getTarget (cwd : Option (List Byte)) (cwdLen : ℕ) (path : List Byte) (pathLen : ℕ) :
    Option (List Byte) :=
  if 0 < pathLen then realPathTarget cwd cwdLen path pathLen else none

/-- The string `target` resolves to `r`, which fits a buffer. -/
def Resolves (os : Os) (log : Log) (target : Option (List Byte)) (r : List Byte) : Prop :=
  ∃ p, target = some p ∧ os.realpath log p = some r ∧ r.length < pathLenMax

/-- The outcome of resolving a path from the given log, where `target` is the string
that is resolved, if there is one. -/
inductive Resolving (os : Os) (log : Log) (target : Option (List Byte)) :
    PathOut → List Event → Prop
  | failed {L : List Event} (hL : Lookups L) (hno : ∀ r, ¬ Resolves os log target r) :
      Resolving os log target ⟨-1, [], 0⟩ L
  | found {p r : List Byte} (hp : target = some p) (ha : os.realpath log p = some r)
      (hlen : r.length < pathLenMax) :
      Resolving os log target ⟨0, strncpy [] 0 r pathLenMax, r.length⟩ [.realpath p (some r)]

/-- Without a target, nothing is resolved and no call is made. -/
theorem Resolving.of_none {log : Log} : Resolving os log none ⟨-1, [], 0⟩ [] :=
  .failed .nil fun _ ⟨_, h, _⟩ => by simp at h

theorem wp_filesystemGetRealPath {cwd : Option (List Byte)} {cwdLen : ℕ} {path : List Byte}
    {pathLen : ℕ} {E : St → Prop} :
    wp os (filesystemGetRealPath cwd cwdLen path pathLen [] pathLenMax 0)
      (fun out s' => ∃ L, Resolving os s.log (getTarget cwd cwdLen path pathLen) out L ∧
        s' = ⟨s.data, L ++ s.log⟩) E s := by
  unfold filesystemGetRealPath getTarget
  by_cases hpos : 0 < pathLen
  · rw [if_pos ⟨hpos, by decide⟩, if_pos hpos]
    cases realPathTarget cwd cwdLen path pathLen with
    | none => exact ⟨[], .of_none, rfl⟩
    | some p =>
      refine (wp_bind _ _).mpr ((wp_call _ _).mpr ?_)
      cases ha : os.realpath s.log p with
      | none =>
        refine ⟨[.realpath p none], .failed (.cons rfl .nil) ?_, rfl⟩
        rintro r ⟨_, hp, hr, -⟩
        obtain rfl := Option.some.inj hp
        simp [ha] at hr
      | some r =>
        obtain ⟨-, hn⟩ := os.realpath_canonical ha
        by_cases hshort : r.length < pathLenMax
        · have hstr : strnlen r pathLenMax = r.length := strnlen_of_length_lt hn hshort.le
          simp only [hstr]
          rw [if_pos hshort]
          exact ⟨[.realpath p (some r)], .found rfl ha hshort, rfl⟩
        · have hstr : strnlen r pathLenMax = pathLenMax := strnlen_of_le hn (not_lt.mp hshort)
          simp only [hstr]
          rw [if_neg (lt_irrefl _)]
          refine ⟨[.realpath p (some r)], .failed (.cons rfl .nil) ?_, rfl⟩
          rintro r' ⟨_, hp, hr, hlen⟩
          obtain rfl := Option.some.inj hp
          obtain rfl := Option.some.inj (ha.symm.trans hr)
          exact hshort hlen
  · rw [if_neg fun h => hpos h.1, if_neg hpos]
    exact ⟨[], .of_none, rfl⟩

/-- Reading a string changes nothing. -/
theorem wp_readString {a : List Byte} {E : St → Prop} :
    wp os (readString a : ServerM _) (fun out s' => out = cstr (a ++ os.behind s.log) ∧ s' = s)
      E s := ⟨rfl, rfl⟩

/-- The string in a buffer that a path was resolved into. -/
theorem wp_readString_found {r : List Byte} (hn : NoNul r) (hlen : r.length < pathLenMax)
    {E : St → Prop} :
    wp os (readString (strncpy [] 0 r pathLenMax) : ServerM _) (fun p s' => p = r ∧ s' = s) E s :=
  ⟨cstr_strncpy hn hlen [] _, rfl⟩

/-- What `VSFTPServerServerPathToRealPath` has `realpath` resolve. -/
def serverTarget (os : Os) (s : St) (path : List Byte) (len : ℕ) : Option (List Byte) :=
  if 0 < len then
    if filesystemIsAbsPath path = 0 then
      getTarget none 0 (cstr (absoluteBuf s.data path ++ os.behind s.log))
        (strnlen (absoluteBuf s.data path) pathLenMax)
    else if CwdFits os s then
      getTarget (some (cstr (cwdText os s))) (cwdText os s).length path len
    else none
  else none

theorem wp_serverServerPathToRealPath {path : List Byte} {len : ℕ} {E : St → Prop}
    (hE : filesystemIsAbsPath path ≠ 0 → PrintKills os s → E s) :
    wp os (serverServerPathToRealPath path len [] pathLenMax 0)
      (fun out s' => ∃ L, Resolving os s.log (serverTarget os s path len) out L ∧
        s' = ⟨s.data, L ++ s.log⟩) E s := by
  unfold serverServerPathToRealPath serverTarget
  by_cases hpos : 0 < len
  · rw [if_pos ⟨hpos, by decide⟩, if_pos hpos]
    by_cases habs : filesystemIsAbsPath path = 0
    · rw [if_pos habs, if_pos habs]
      exact wp_filesystemGetRealPath
    · rw [if_neg habs, if_neg habs]
      refine wp_seq (wp_serverGetCwd (hE habs)) ?_
      rintro out s' ⟨hcwd, rfl⟩
      cases hcwd with
      | failed hno =>
        rw [if_neg hno]
        exact ⟨[], .of_none, rfl⟩
      | got hfits =>
        rw [if_pos hfits]
        refine wp_ite (fun _ => wp_seq wp_readString ?_) (fun h => absurd rfl h)
        rintro _ s' ⟨rfl, rfl⟩
        rw [List.append_assoc, List.singleton_append, cstr_append_zero]
        exact wp_filesystemGetRealPath
  · rw [if_neg fun h => hpos h.1, if_neg hpos]
    exact ⟨[], .of_none, rfl⟩

/-- What an argument in an array, of the given length, makes the server resolve. -/
def argTarget (os : Os) (s : St) (args : List Byte) (len : ℕ) : Option (List Byte) :=
  serverTarget os s (cstr (args ++ os.behind s.log)) len

/-- An argument that makes the server resolve something is not empty. -/
theorem argTarget_pos {args p : List Byte} {len : ℕ} (h : argTarget os s args len = some p) :
    0 < len := by
  by_contra hn
  unfold argTarget serverTarget at h
  rw [if_neg hn] at h
  exact absurd h (by simp)

/-- An argument that is relative to the working directory. -/
def IsRelative (os : Os) (s : St) (args : List Byte) : Prop :=
  filesystemIsAbsPath (cstr (args ++ os.behind s.log)) ≠ 0

/-- Resolving an argument; only a relative one needs the working directory. -/
theorem wp_resolveArg {args : List Byte} {len : ℕ} {E : St → Prop}
    (hE : IsRelative os s args → PrintKills os s → E s) :
    wp os (do
      let path ← readString args
      serverServerPathToRealPath path len [] pathLenMax 0)
      (fun out s' => ∃ L, Resolving os s.log (argTarget os s args len) out L ∧
        s' = ⟨s.data, L ++ s.log⟩) E s := by
  refine wp_seq wp_readString ?_
  rintro _ s' ⟨rfl, rfl⟩
  exact wp_serverServerPathToRealPath hE

/-! ### The root test -/

/-- **The root test compares texts**: a path passes if the root path is a prefix
of it. -/
theorem absPathIsNotAboveRootPath_eq_zero_iff {d : ServerData} {p : List Byte}
    (hroot : d.rootPathLen = d.rootPath.length) (hp : 0 < p.length) (t : List Byte) :
    absPathIsNotAboveRootPath d (p ++ t) p.length = 0 ↔ d.rootPath <+: p := by
  unfold absPathIsNotAboveRootPath
  rw [if_pos hp, hroot]
  by_cases hlen : p.length < d.rootPath.length
  · rw [if_pos hlen]
    refine iff_of_false (by decide) fun h => ?_
    have := h.length_le
    omega
  · rw [if_neg hlen, isPrefix_iff_getD (by omega) t]
    simp only [List.all_eq_true, List.mem_range, decide_eq_true_eq, ite_eq_left_iff]
    constructor
    · intro h
      by_contra hne
      exact absurd (h hne) (by decide)
    · exact fun h hne => absurd h hne

/-! ### Kinds of files -/

/-- The kind `VSFTPFilesystemIsDir` and `VSFTPFilesystemIsFile` look at. -/
def reportedKind (os : Os) (log : Log) (path : List Byte) : FileKind :=
  ((os.stat log path).getD (os.leftover log)).kind

theorem wp_filesystemHasKind {kind : FileKind} {path : List Byte} {len : ℕ} (hlen : 0 < len)
    {E : St → Prop} :
    wp os (filesystemHasKind kind path len : ServerM _)
      (fun retval s' =>
        (retval = 0 ∧ reportedKind os s.log path = kind ∨
          retval = -1 ∧ reportedKind os s.log path ≠ kind) ∧
        s' = ⟨s.data, .stat path (os.stat s.log path) :: s.log⟩) E s := by
  unfold filesystemHasKind
  rw [if_pos hlen]
  refine (wp_bind _ _).mpr ((wp_peek _).mpr ((wp_bind _ _).mpr ((wp_call _ _).mpr ⟨?_, rfl⟩)))
  by_cases hkind : reportedKind os s.log path = kind
  · exact Or.inl ⟨if_pos hkind, hkind⟩
  · exact Or.inr ⟨if_neg hkind, hkind⟩

/-! ### Changing the directory -/

/-- `VSFTPServerSetCwd` can enter the directory that the path resolves to. -/
def Enterable (os : Os) (log : Log) (dir : List Byte) (d : ServerData) (r : List Byte) : Prop :=
  os.realpath log dir = some r ∧ r.length < pathLenMax ∧
    reportedKind os (.realpath dir (some r) :: log) r = .dir ∧
    absPathIsNotAboveRootPath d (strncpy [] 0 r pathLenMax) r.length = 0

/-- The outcome of `VSFTPServerSetCwd` for an absolute path, from the given log, with
the record before and after. -/
inductive Entering (os : Os) (log : Log) (dir : List Byte) (d : ServerData) :
    Int → ServerData → List Event → Prop
  | failed {retval : Int} {L : List Event} (hr : retval ≠ 0) (hL : Lookups L)
      (hno : ∀ r, ¬ Enterable os log dir d r) : Entering os log dir d retval d L
  | entered {r : List Byte} (h : Enterable os log dir d r) :
      Entering os log dir d 0 { d with cwd := r, cwdLen := r.length }
        [.stat r (os.stat (.realpath dir (some r) :: log) r), .realpath dir (some r)]

theorem Entering.lookups {log : Log} {dir : List Byte} {d d' : ServerData} {retval : Int}
    {L : List Event} (h : Entering os log dir d retval d' L) : Lookups L := by
  cases h with
  | failed _ hL => exact hL
  | entered => exact .cons rfl (.cons rfl .nil)

theorem wp_serverSetCwd {dir : List Byte} {len : ℕ} (hdir : filesystemIsAbsPath dir = 0)
    (hpos : 0 < len) :
    wp os (serverSetCwd dir len)
      (fun retval s' => ∃ L, Entering os s.log dir s.data retval s'.data L ∧ s'.log = L ++ s.log)
      (Killed os s) s := by
  unfold serverSetCwd
  refine wp_seq (wp_serverGetCwd PrintKills.killed) ?_
  rintro cwd s1 ⟨-, rfl⟩
  -- an absolute path is resolved as it is, whatever the working directory
  have hresolve : ∀ {cwd : Option (List Byte)} {cwdLen : ℕ},
      wp os (filesystemGetRealPath cwd cwdLen dir len [] pathLenMax 0)
        (fun out s' => ∃ L, Resolving os s1.log (some dir) out L ∧ s' = ⟨s1.data, L ++ s1.log⟩)
        (Killed os s1) s1 := by
    intro cwd cwdLen
    have h : getTarget cwd cwdLen dir len = some dir := by
      unfold getTarget realPathTarget
      rw [if_pos hpos, if_pos hdir]
    exact h ▸ wp_filesystemGetRealPath
  refine wp_seq (wp_ite (fun _ => hresolve) (fun _ => hresolve)) ?_
  rintro out s2 ⟨L, hres, rfl⟩
  cases hres with
  | failed hL hno =>
    exact ⟨L, .failed (by decide) hL fun r hr => hno r ⟨dir, rfl, hr.1, hr.2.1⟩, rfl⟩
  | @found p r hp ha hlen =>
    obtain rfl := Option.some.inj hp
    obtain ⟨hr, hn⟩ := os.realpath_canonical ha
    -- whatever could be entered is `r`
    have hsame : ∀ {r'}, Enterable os s1.log dir s1.data r' → r = r' := fun h =>
      Option.some.inj (ha.symm.trans h.1)
    refine wp_seq (wp_readString_found hn hlen) ?_
    rintro realPath s3 ⟨rfl, rfl⟩
    rw [onOk_zero]
    refine wp_seq (wp_filesystemHasKind hr.length_pos) ?_
    rintro retval s4 ⟨⟨rfl, hkind⟩ | ⟨rfl, hkind⟩, rfl⟩
    · -- it is a directory, so the root test decides
      rw [onOk_zero]
      refine (wp_bind _ _).mpr ((wp_bind _ _).mpr (wp_getData.mpr ((wp_pure _).mpr ?_)))
      refine wp_onOk (fun htest => ?_) (fun htest => ?_)
      · refine wp_ite (fun _ => ?_) (fun h => absurd hlen h)
        exact ⟨_, .entered ⟨ha, hlen, hkind, htest⟩, rfl⟩
      · refine ⟨_, .failed htest (.cons rfl (.cons rfl .nil)) fun r' h => ?_, rfl⟩
        obtain rfl := hsame h
        exact htest h.2.2.2
    · refine ⟨_, .failed (by decide) (.cons rfl (.cons rfl .nil)) fun r' h => ?_, rfl⟩
      obtain rfl := hsame h
      exact hkind h.2.2.1

end VsFtp
