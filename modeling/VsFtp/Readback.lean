import VsFtp.Frames
import VsFtp.Mapping

/-!
# The working directory is read back

`VSFTPServerSetCwd` stores the working directory, and `VSFTPServerGetCwd` prints it: a directory
is passed to `snprintf` as the format.  Between two calls of `VSFTPServerSetCwd` that succeed
nothing changes what is stored, so it all depends on the percent signs in the path.

## Main definitions

* `Sets` — in a turn `VSFTPServerSetCwd` is called with a path and succeeds.
* `Undisturbed` — a turn in which it does not.
* `ReadsBack` — `VSFTPServerGetCwd` returns the path and its length.
* `RefersTo` — what relative arguments, `PWD` and `NLST` make of the working directory.

## Main results

* `Sets.stores`, `Undisturbed.keeps` — what the two kinds of turns do to it.
* `cwd_read_back_iff` — **a directory is read back as it was set, whatever a conversion prints,
  if and only if there is no percent sign in its path.**
* `percent_not_read_back` — a directory that is not.
-/

namespace VsFtp

open CString Prog

attribute [local irreducible] serverSendReply helpText

variable {os : Os} {s s' s1 s2 : St} {argv : Argv} {dir : List Byte}

/-! ### Calls that set the directory -/

/-- In the turn from `s` the working directory is set: `VSFTPServerSetCwd` is called with the
path and returns zero, in the state that is given last. -/
inductive Sets (os : Os) (s : St) : List Byte → St → Prop
  | starting {s1 : St} (hcreated : s.data.isServerSocketCreated = false)
      (hrun : serverSetCwd s.data.rootPath s.data.rootPathLen os ⟨s.data.unstarted, s.log⟩
        = (some 0, s1)) : Sets os s s.data.rootPath s1
  | accepting {s1 : St} (hcreated : s.data.isServerSocketCreated = true)
      (hconnected : s.data.isConnected = false) (ha : 0 ≤ os.accept s.log s.data.serverSock)
      (hrun : serverSetCwd s.data.rootPath s.data.rootPathLen os
        ⟨acceptedData os s, acceptedLog os s⟩ = (some 0, s1)) : Sets os s s.data.rootPath s1
  | entering {args : List Byte} {len : ℕ} {sc s2 s1 : St} {out : PathOut}
      (hcall : Called os s .cwd args len sc) (hpath : resolveArg args len os sc = (some out, s2))
      (hok : out.retval = 0)
      (hrun : serverSetCwd (cstr (out.buf ++ os.behind s2.log)) out.len os s2 = (some 0, s1)) :
      Sets os s (cstr (out.buf ++ os.behind s2.log)) s1

/-- A turn in which the working directory is not set. -/
def Undisturbed (os : Os) (s s' : St) : Prop := Turn os s s' ∧ ∀ dir s1, ¬ Sets os s dir s1

/-- The working directory with its length. -/
def ServerData.home (d : ServerData) : List Byte × ℕ := (d.cwd, d.cwdLen)

/-- `VSFTPServerSetCwd`, called in `t`, returns, and it decides the working directory: it is what
the call has stored if it succeeds, and what it was before if it does not. -/
def Decides (os : Os) (dir : List Byte) (len : ℕ) (t : St) (d d' : ServerData) : Prop :=
  ∃ r s1, serverSetCwd dir len os t = (some r, s1) ∧
    (r = 0 → d'.home = s1.data.home) ∧ (r ≠ 0 → d'.home = d.home)

/-- A path that is absolute is entered or not, and the run is known as well. -/
theorem wp_serverSetCwd_run {len : ℕ} (hdir : filesystemIsAbsPath dir = 0) (hpos : 0 < len) :
    wp os (serverSetCwd dir len) (fun r s' => serverSetCwd dir len os s = (some r, s') ∧
      ∃ L, Entering os s.log dir s.data r s'.data L) (fun _ => True) s :=
  wp_mono (wp_and (wp_self _) (wp_serverSetCwd hdir hpos))
    (fun _ _ h => ⟨h.1, h.2.imp fun _ h => h.1⟩)
    fun _ _ => trivial

/-- What is done after the call leaves the working directory alone. -/
theorem Decides.of_entering {len : ℕ} {t : St} {d d' : ServerData} {r : Int} {L : List Event}
    (hrun : serverSetCwd dir len os t = (some r, s1))
    (hent : Entering os t.log dir t.data r s1.data L) (ht : t.data.home = d.home)
    (hd : d'.home = s1.data.home) : Decides os dir len t d d' := by
  refine ⟨r, s1, hrun, fun _ => hd, fun hne => ?_⟩
  generalize hd1 : s1.data = d1 at hent hd
  cases hent with
  | failed => exact hd.trans ht
  | entered => exact absurd rfl hne

theorem wp_serverStart_home (h : Configured s.data) :
    wp os serverStart (fun _ s' => Decides os s.data.rootPath s.data.rootPathLen
      ⟨s.data.unstarted, s.log⟩ s.data s'.data) (fun _ => True) s := by
  unfold serverStart
  refine (wp_bind _ _).mpr ((wp_modifyData _).mpr ((wp_bind _ _).mpr (wp_getData.mpr ?_)))
  refine wp_seq (wp_serverSetCwd_run h.isAbsPath h.length_pos) ?_
  rintro r s1 ⟨hrun, L, hent⟩
  by_cases hr : r = 0
  · subst hr
    rw [onOk_zero]
    refine (wp_bind _ _).mpr ((wp_bind _ _).mpr ((wp_modifyData _).mpr ((wp_bind _ _).mpr
      (wp_getData.mpr ?_))))
    refine wp_mono wp_createPassiveSocket ?_ fun _ h => h
    rintro r _ ⟨C, hC, rfl⟩
    exact wp_onOk (fun _ => .of_entering hrun hent rfl rfl)
      (fun _ => .of_entering hrun hent rfl rfl)
  · simp only [onOk_of_ne hr, pure_bind]
    exact .of_entering hrun hent rfl rfl

theorem wp_waitForIncomingConnection_home (h : Configured s.data) :
    wp os waitForIncomingConnection (fun _ s' =>
      (0 ≤ os.accept s.log s.data.serverSock → Decides os s.data.rootPath s.data.rootPathLen
        ⟨acceptedData os s, acceptedLog os s⟩ s.data s'.data) ∧
      (os.accept s.log s.data.serverSock < 0 → s'.data.home = s.data.home)) (fun _ => True) s := by
  unfold waitForIncomingConnection
  refine (wp_bind _ _).mpr (wp_getData.mpr ((wp_bind _ _).mpr ((wp_call _ _).mpr
    ((wp_bind _ _).mpr ((wp_modifyData _).mpr ?_)))))
  refine wp_ite (fun ha => ?_) (fun ha => ?_)
  · refine wp_seq (wp_serverSetCwd_run h.isAbsPath h.length_pos) ?_
    rintro r s1 ⟨hrun, L, hent⟩
    have hdone : ∀ {d' : ServerData}, d'.home = s1.data.home →
        (0 ≤ os.accept s.log s.data.serverSock → Decides os s.data.rootPath s.data.rootPathLen
          ⟨acceptedData os s, acceptedLog os s⟩ s.data d') ∧
        (os.accept s.log s.data.serverSock < 0 → d'.home = s.data.home) :=
      fun hd => ⟨fun _ => .of_entering hrun hent rfl hd, fun hn => by omega⟩
    by_cases hr : r = 0
    · subst hr
      rw [onOk_zero]
      refine wp_mono wp_greet ?_ fun _ h => h
      rintro _ _ ⟨w, -, ⟨-, -, rfl⟩ | ⟨-, -, rfl⟩⟩
      · exact hdone rfl
      · exact hdone rfl
    · simp only [onOk_of_ne hr, pure_bind]
      exact hdone rfl
  · refine (wp_bind _ _).mpr ((wp_peek _).mpr (wp_ite (fun _ => ?_) (fun _ => ?_)))
    · exact ⟨fun h => absurd h ha, fun _ => rfl⟩
    · refine wp_seq wp_serverStop ?_
      rintro _ _ ⟨_⟩
      exact ⟨fun h => absurd h ha, fun _ => rfl⟩

/-- An argument without a length is not resolved. -/
theorem resolveArg_retval_ne {args : List Byte} {len : ℕ} {out : PathOut} (hlen : ¬ 0 < len)
    (hrun : resolveArg args len os s = (some out, s2)) : out.retval ≠ 0 := by
  obtain ⟨L, hres, -⟩ := of_wp_run (wp_resolveArg fun _ => PrintKills.killed) hrun
  rw [argTarget, serverTarget, if_neg hlen] at hres
  cases hres with
  | failed => decide
  | found hp => simp at hp

/-- What `CWD` does to the working directory. -/
theorem wp_commandHandlerCwd_home {args : List Byte} {len : ℕ} :
    wp os (commandHandlerCwd args len) (fun _ s' =>
      (∃ out s2, resolveArg args len os s = (some out, s2) ∧ out.retval = 0 ∧
        Decides os (cstr (out.buf ++ os.behind s2.log)) out.len s2 s.data s'.data) ∨
      (∀ out s2, resolveArg args len os s = (some out, s2) → out.retval ≠ 0) ∧
        s'.data.home = s.data.home) (fun _ => True) s := by
  have hreply : ∀ {text : List Byte} {s1 : St} {E : St → Prop}, text.length + 2 < responseLenMax →
      wp os (serverSendReply text) (fun _ s' => s'.data = s1.data) E s1 := by
    intro text s1 E hlen
    refine wp_mono (wp_serverSendReply hlen) ?_ fun _ h => h
    rintro _ _ ⟨w, -, rfl⟩
    rfl
  unfold commandHandlerCwd
  by_cases hlen : 0 < len
  swap
  · rw [if_neg hlen]
    refine wp_mono (hreply (by decide)) ?_ fun _ h => h
    intro _ s' hd
    exact Or.inr ⟨fun out s2 hrun => resolveArg_retval_ne hlen hrun, by rw [hd]⟩
  rw [if_pos hlen]
  refine wp_seq (wp_mono (wp_and (wp_self (resolveArg args len))
    (wp_resolveArg fun _ => PrintKills.killed)) (fun _ _ h => h) fun _ _ => trivial) ?_
  rintro out s2 ⟨hrun, L, hres, rfl⟩
  cases hres with
  | failed hL =>
    rw [onOk_of_ne (by decide), pure_bind, if_neg (by decide)]
    refine wp_mono (hreply (by decide)) ?_ fun _ h => h
    intro _ s' hd
    refine Or.inr ⟨fun out s2 hrun' => ?_, by rw [hd]⟩
    obtain rfl := Option.some.inj (congrArg Prod.fst (hrun.symm.trans hrun'))
    decide
  | @found p r hp ha hshort =>
    obtain ⟨hr, hn⟩ := os.realpath_canonical ha
    rw [onOk_zero]
    -- the path is read back from its buffer
    have hset : wp os (do
          let realPath ← readString (strncpy [] 0 r pathLenMax)
          serverSetCwd realPath r.length)
        (fun retval s' => serverSetCwd r r.length os ⟨s.data, [.realpath p (some r)] ++ s.log⟩
            = (some retval, s') ∧
          ∃ L, Entering os (.realpath p (some r) :: s.log) r s.data retval s'.data L)
        (fun _ => True) ⟨s.data, [.realpath p (some r)] ++ s.log⟩ := by
      refine wp_seq (wp_readString_found hn hshort) ?_
      rintro _ _ ⟨rfl, rfl⟩
      exact wp_serverSetCwd_run (filesystemIsAbsPath_of_canonical hr) hr.length_pos
    refine wp_seq hset ?_
    rintro retval s1 ⟨hrun', L', hent⟩
    have hdone : ∀ {d' : ServerData}, d' = s1.data → ∃ out s2, resolveArg args len os s
        = (some out, s2) ∧ out.retval = 0 ∧
        Decides os (cstr (out.buf ++ os.behind s2.log)) out.len s2 s.data d' := by
      rintro _ rfl
      refine ⟨_, _, hrun, rfl, ?_⟩
      rw [cstr_strncpy hn hshort]
      exact .of_entering hrun' hent rfl rfl
    exact wp_ite (fun _ => wp_mono (hreply (by decide))
      (fun _ _ hd => Or.inl (hdone hd)) fun _ h => h)
      (fun _ => wp_mono (hreply (by decide)) (fun _ _ hd => Or.inl (hdone hd)) fun _ h => h)

/-! ### Turns -/

theorem Handled.home {r : Int} (h : Handled s r s') : s'.data.home = s.data.home := by
  cases h <;> rfl

/-- **A turn in which the directory is set** leaves it as it was stored. -/
theorem Sets.stores {dir : List Byte} (hset : Sets os s dir s1) (hd : Configured s.data)
    (ht : Turn os s s2) : s2.data.home = s1.data.home := by
  have hstores : ∀ {len : ℕ} {t : St} {d d' : ServerData} {dir : List Byte},
      Decides os dir len t d d' → serverSetCwd dir len os t = (some 0, s1) →
        d'.home = s1.data.home := by
    rintro len t d d' dir ⟨r, s3, hrun, h0, -⟩ hrun'
    obtain ⟨hr, rfl⟩ := Prod.mk.inj (hrun.symm.trans hrun')
    exact h0 (Option.some.inj hr)
  cases hset with
  | starting hcreated hrun =>
    unfold Turn serverHandler at ht
    rw [run_bind_of_some (run_getData os s), if_pos hcreated] at ht
    have hdec := of_wp_run (wp_serverStart_home hd) ht
    exact hstores hdec hrun
  | accepting hcreated hconnected ha hrun =>
    unfold Turn serverHandler at ht
    rw [run_bind_of_some (run_getData os s), if_neg (by simp [hcreated]), if_pos hconnected] at ht
    have hdec := of_wp_run (wp_waitForIncomingConnection_home hd) ht
    exact hstores (hdec.1 ha) hrun
  | entering hcall hpath hok hrun =>
    obtain ⟨r, s3, hhome, hh⟩ := hcall.of_turn wp_commandHandlerCwd_home ht
    rw [hh.home]
    rcases hhome with ⟨out, s4, hpath', -, hdec⟩ | ⟨hno, -⟩
    · obtain ⟨hout, rfl⟩ := Prod.mk.inj (hpath.symm.trans hpath')
      obtain rfl := Option.some.inj hout
      exact hstores hdec hrun
    · exact absurd hok (hno _ _ hpath)

/-- **A turn in which it is not set** leaves it alone. -/
theorem Undisturbed.keeps (h : Undisturbed os s s2) (hi : Sound os s) :
    s2.data.home = s.data.home := by
  obtain ⟨ht, hno⟩ := h
  have hkeeps : ∀ {len : ℕ} {t : St} {dir : List Byte}, Decides os dir len t s.data s2.data →
      (∀ s1, serverSetCwd dir len os t = (some 0, s1) → Sets os s dir s1) →
        s2.data.home = s.data.home := by
    rintro len t dir ⟨r, s3, hrun, -, hne⟩ hsets
    refine hne fun h0 => ?_
    subst h0
    exact hno _ _ (hsets s3 hrun)
  have hrun : serverHandler os s = (some 0, s2) := ht
  unfold serverHandler at hrun
  rw [run_bind_of_some (run_getData os s)] at hrun
  cases Step.of_run hi.configured ht with
  | starting hcreated =>
    rw [if_pos hcreated] at hrun
    have hdec := of_wp_run (wp_serverStart_home hi.configured) hrun
    exact hkeeps hdec fun _ => .starting hcreated
  | waiting hcreated hconnected =>
    rw [if_neg (by simp [hcreated]), if_pos hconnected] at hrun
    have hdec := of_wp_run (wp_waitForIncomingConnection_home hi.configured) hrun
    by_cases ha : 0 ≤ os.accept s.log s.data.serverSock
    · exact hkeeps (hdec.1 ha) fun _ => .accepting hcreated hconnected ha
    · exact hdec.2 (by omega)
  | conversing hcreated hconnected hs =>
    generalize h0 : (0 : Int) = r0 at hs
    cases hs with
    | line hread hline hp hh =>
      cases hp with
      | @known name c _ _ hfind ho =>
        have hcall := Called.mk hcreated hconnected hread hline hfind
        by_cases hc : c = .cwd
        · subst hc
          obtain ⟨r, s3, hhome, hh⟩ := hcall.of_turn wp_commandHandlerCwd_home ht
          rw [hh.home]
          rcases hhome with ⟨out, s4, hpath, hok, r, s5, hrun, -, hne⟩ | ⟨-, hkept⟩
          · refine hne fun h0 => ?_
            subst h0
            exact hno _ _ (.entering hcall hpath hok hrun)
          · exact hkept
        · obtain ⟨r, s3, ⟨N, -, heff⟩, hh⟩ := hcall.of_turn
            (wp_commandHandle_effect hi.configured.addressed) ht
          rw [hh.home]
          generalize s3.data = d3 at heff
          cases heff with
          | entered => exact absurd rfl hc
          | _ => rfl
      | unknown => exact hh.home
    | closed _ h => cases h; rfl
    | ignored => rfl
    | stopped _ _ _ _ h => cases h; rfl

/-! ### Reading back -/

/-- `VSFTPServerGetCwd`, with a buffer of `PATH_LEN_MAX` bytes, returns the path and its length. -/
def ReadsBack (os : Os) (dir : List Byte) (s : St) : Prop :=
  wp os (serverGetCwd [] pathLenMax 0)
    (fun out s' => out = ⟨0, dir ++ [0], dir.length⟩ ∧ s' = s) (fun _ => False) s

theorem ReadsBack.text_eq (h : ReadsBack os dir s) : cwdText os s = dir := by
  obtain ⟨out, s', hrun, rfl, rfl⟩ := exists_run_of_wp h
  obtain ⟨hgot, -⟩ := of_wp_run (wp_serverGetCwd PrintKills.killed) hrun
  generalize hout : PathOut.mk 0 (dir ++ [0]) dir.length = out at hgot
  cases hgot with
  | failed => simp at hout
  | got => exact (List.append_cancel_right (congrArg PathOut.buf hout)).symm

/-- The system with other answers to what a conversion prints that was given no argument, and to
whether the process survives it. -/
def Os.printing (os : Os) (survives : Log → Bool) (conversion : Log → List Byte) : Os :=
  { os with survives := survives, conversion := conversion }

/-- **A stored path is read back, whatever a conversion prints, if and only if it has no percent
sign.** -/
theorem readsBack_iff {d : ServerData} (hhome : d.home = (dir, dir.length)) (hpos : 0 < dir.length)
    (hlen : dir.length < pathLenMax) :
    (∀ v c log, ReadsBack (os.printing v c) dir ⟨d, log⟩) ↔ (37 : Byte) ∉ dir := by
  obtain ⟨hcwd, hcwdLen⟩ := Prod.mk.inj hhome
  constructor
  · intro h h37
    have hread := h (fun _ => true) (fun _ => []) []
    have htext := hread.text_eq
    rw [cwdText, hcwd, hcwdLen] at htext
    cases hf : formatText dir dir.length with
    | none =>
      rw [hf] at htext
      exact List.ne_nil_of_length_pos hpos htext.symm
    | some t =>
      rw [hf] at htext
      exact formatText_ne h37 hf htext
  · intro h37 v c log
    exact wp_serverGetCwd_text (s := ⟨d, log⟩) (by rw [hcwd]; exact formatText_of_plain h37 _)
      (hcwdLen ▸ hpos) (hcwdLen ▸ hlen) hlen

/-- What refers to the working directory: an argument that is relative is resolved behind it,
`PWD` answers with its server path, and `NLST` without an argument lists it. -/
structure RefersTo (os : Os) (dir : List Byte) (s : St) : Prop where
  relative : ∀ path len, filesystemIsAbsPath path ≠ 0 →
    wp os (serverServerPathToRealPath path len [] pathLenMax 0) (fun _ s' =>
      s' = s ∨ ∃ r, s' = ⟨s.data, .realpath (dir ++ 47 :: path) r :: s.log⟩) (fun _ => False) s
  pwd : ∀ args len, wp os (commandHandlerPwd args len) (fun _ s' => ∃ w,
    s' = ⟨s.data, .write .client s.data.clientSock
      (ascii "257 \"" ++ serverPathOf s.data.rootPath dir ++ ascii "\"" ++ crlf) w :: s.log⟩)
    (fun _ => False) s
  nlst : ∀ args, wp os (nlstPath args 0)
    (fun out s' => out = ⟨0, dir ++ [0], dir.length⟩ ∧ s' = s) (fun _ => False) s

theorem wp_relative {path : List Byte} {len : ℕ} (hread : ReadsBack os dir s) (hn : NoNul dir)
    (hrel : filesystemIsAbsPath path ≠ 0) :
    wp os (serverServerPathToRealPath path len [] pathLenMax 0) (fun _ s' =>
      s' = s ∨ ∃ r, s' = ⟨s.data, .realpath (dir ++ 47 :: path) r :: s.log⟩)
      (fun _ => False) s := by
  unfold serverServerPathToRealPath
  refine wp_ite (fun _ => ?_) (fun _ => Or.inl rfl)
  rw [if_neg hrel]
  refine wp_seq hread ?_
  rintro _ s1 ⟨rfl, rfl⟩
  rw [if_pos rfl]
  refine wp_seq wp_readString ?_
  rintro _ s2 ⟨rfl, rfl⟩
  rw [List.append_assoc, List.singleton_append, cstr_append_nul hn]
  -- the string that is resolved is the directory, a separator and the path
  have htarget : ∀ {p : List Byte}, realPathTarget (some dir) dir.length path len = some p →
      dir ++ 47 :: path = p := by
    intro p hp
    unfold realPathTarget concatCwdAndPath at hp
    rw [if_neg hrel] at hp
    simp only [Option.ite_none_right_eq_some] at hp
    exact Option.some.inj hp.2.2.2
  unfold filesystemGetRealPath
  refine wp_ite (fun _ => ?_) (fun _ => Or.inl rfl)
  cases hp : realPathTarget (some dir) dir.length path len with
  | none => exact Or.inl rfl
  | some p =>
    rw [htarget hp]
    refine (wp_bind _ _).mpr ((wp_call _ _).mpr ?_)
    generalize os.realpath s2.log p = r
    cases r with
    | none => exact Or.inr ⟨none, rfl⟩
    | some r => exact wp_ite (fun _ => Or.inr ⟨some r, rfl⟩) (fun _ => Or.inr ⟨some r, rfl⟩)

theorem refersTo (hd : Configured s.data) (hread : ReadsBack os dir s) (hn : NoNul dir)
    (hplain : (37 : Byte) ∉ dir) (hhome : s.data.home = (dir, dir.length))
    (hlen : dir.length < pathLenMax) (hroot : s.data.rootPath <+: dir) : RefersTo os dir s where
  relative _ _ hrel := wp_relative hread hn hrel
  pwd _ _ := wp_commandHandlerPwd_below hd hn hplain hlen hroot (Prod.mk.inj hhome).1
    (Prod.mk.inj hhome).2
  nlst args := by
    unfold nlstPath
    refine wp_seq hread ?_
    rintro _ s1 ⟨rfl, rfl⟩
    exact ⟨rfl, rfl⟩

/-! ### The directory that was set -/

/-- What is known of a directory that was set and that `realpath` returns unchanged. -/
structure Stored (root dir : List Byte) (d : ServerData) : Prop where
  noNul : NoNul dir
  length_pos : 0 < dir.length
  length_lt : dir.length < pathLenMax
  home_eq : d.home = (dir, dir.length)
  root_prefix : root <+: dir

/-- A call of `VSFTPServerSetCwd` that succeeds stores its path. -/
theorem Stored.of_run {t : St} {len : ℕ} {root : List Byte} (hd : Configured t.data)
    (hroot : t.data.rootPath = root) (hcanon : ∀ log r, os.realpath log dir = some r → r = dir)
    (hdir : filesystemIsAbsPath dir = 0) (hpos : 0 < len)
    (hrun : serverSetCwd dir len os t = (some 0, s1)) : Stored root dir s1.data := by
  obtain ⟨-, L, hent⟩ := of_wp_run (wp_serverSetCwd_run hdir hpos) hrun
  generalize s1.data = d at hent
  generalize h0 : (0 : Int) = r0 at hent
  cases hent with
  | failed hne => exact absurd h0.symm hne
  | entered h =>
    obtain ⟨ha, hlen, -, htest⟩ := h
    obtain rfl := hcanon _ _ ha
    obtain ⟨hc, hn⟩ := os.realpath_canonical ha
    rw [strncpy_zero hlen.le, List.append_assoc,
      absPathIsNotAboveRootPath_eq_zero_iff hd.length_eq hc.length_pos] at htest
    exact ⟨hn, hc.length_pos, hlen, rfl, hroot ▸ htest⟩

theorem Sets.stored (h : Sets os s dir s1) (hd : Configured s.data)
    (hcanon : ∀ log r, os.realpath log dir = some r → r = dir) :
    Stored s.data.rootPath dir s1.data := by
  cases h with
  | starting _ hrun =>
    exact .of_run (t := ⟨s.data.unstarted, s.log⟩) (hd.of_config rfl) rfl hcanon hd.isAbsPath
      hd.length_pos hrun
  | accepting _ _ _ hrun =>
    exact .of_run (t := ⟨acceptedData os s, acceptedLog os s⟩) (hd.of_config rfl) rfl hcanon
      hd.isAbsPath hd.length_pos hrun
  | entering hcall hpath hok hrun =>
    obtain ⟨L, hres, rfl⟩ := of_wp_run (wp_resolveArg fun _ => PrintKills.killed) hpath
    cases hres with
    | failed => exact absurd hok (by decide)
    | @found p r hp ha hlen =>
      obtain ⟨hr, hn⟩ := os.realpath_canonical ha
      rw [cstr_strncpy hn hlen] at hrun hcanon ⊢
      exact .of_run (hcall.data ▸ hd) (by rw [hcall.data]) hcanon
        (filesystemIsAbsPath_of_canonical hr) hr.length_pos hrun

theorem Step.rootPath {r : Int} (h : Step os s r s') : s'.data.rootPath = s.data.rootPath :=
  congrArg (fun c => c.2.1) h.config

/-- **Undisturbed turns keep the directory.** -/
theorem undisturbed_run (h : Reachable os argv s) (hrun : Reach (· = s) (Undisturbed os) s') :
    Reachable os argv s' ∧ s'.data.home = s.data.home ∧ s'.data.rootPath = s.data.rootPath := by
  refine hrun.invariant (I := fun x => Reachable os argv x ∧ x.data.home = s.data.home ∧
    x.data.rootPath = s.data.rootPath) ?_ ?_
  · rintro _ rfl
    exact ⟨h, rfl, rfl⟩
  · rintro a b - ⟨ha, hhome, hroot⟩ hab
    exact ⟨Reach.step ha hab.1, (hab.keeps ha.sound).trans hhome,
      ((ha.step hab.1).rootPath).trans hroot⟩

/-- **A directory is read back as it was set**, in every state until one is set again and whatever
a conversion prints, **if and only if there is no percent sign in its path**; and then relative
arguments, `PWD` and `NLST` refer to it. -/
theorem cwd_read_back_iff (h : Reachable os argv s) (hset : Sets os s dir s1)
    (hcanon : ∀ log r, os.realpath log dir = some r → r = dir) (ht : Turn os s s2)
    (hrun : Reach (· = s2) (Undisturbed os) s') :
    ((∀ v c log, ReadsBack (os.printing v c) dir ⟨s'.data, log⟩) ↔ (37 : Byte) ∉ dir) ∧
      ((37 : Byte) ∉ dir → ∀ log, RefersTo os dir ⟨s'.data, log⟩) := by
  have hd := h.sound.configured
  obtain ⟨hn, hpos, hlen, hhome, hpre⟩ := hset.stored hd hcanon
  obtain ⟨hr', hkept, hroot⟩ := undisturbed_run (Reach.step h ht) hrun
  have hhome' : s'.data.home = (dir, dir.length) := (hkept.trans (hset.stores hd ht)).trans hhome
  have hiff := @readsBack_iff os dir s'.data hhome' hpos hlen
  refine ⟨hiff, fun hplain log => ?_⟩
  have hread : ReadsBack os dir ⟨s'.data, log⟩ :=
    hiff.mpr hplain os.survives os.conversion log
  have hroot' : s'.data.rootPath = s.data.rootPath := hroot.trans (h.step ht).rootPath
  exact refersTo hr'.sound.configured hread hn hplain hhome' hlen (by rw [hroot']; exact hpre)

/-- A machine on which the client enters `/srv/docs` and asks for the system. -/
def enteringHost : Host :=
  { docsHost with reads := [some (ascii "CWD docs" ++ crlf), some (ascii "SYST" ++ crlf)] }

/-- Behind the second command the directory is read back, and what refers to it does. -/
theorem cwd_read_back_docs :
    let s := Host.run enteringHost.os 4 (Host.start enteringHost.os Host.argv)
    (∀ v c log, ReadsBack (enteringHost.os.printing v c) (ascii "/srv/docs") ⟨s.data, log⟩) ∧
      ∀ log, RefersTo enteringHost.os (ascii "/srv/docs") ⟨s.data, log⟩ := by
  have hread : received enteringHost.os (Host.run enteringHost.os 2
      (Host.start enteringHost.os Host.argv)) = some (ascii "CWD docs" ++ crlf) := by decide +kernel
  have hcall := Called.mk (by decide +kernel) (by decide +kernel) hread (by decide)
    (show commandFind (lineBuffer (ascii "CWD docs" ++ crlf)) = some (ascii "CWD", .cwd) by decide)
  have hset := @Sets.entering _ _ _ _ _ _ _ ⟨0, strncpy [] 0 (ascii "/srv/docs") pathLenMax, 9⟩
    hcall (Prod.ext (by decide +kernel) rfl) rfl (Prod.ext (by decide +kernel) rfl)
  rw [cstr_strncpy (by decide) (by decide)] at hset
  have hcanon : ∀ log r, enteringHost.os.realpath log (ascii "/srv/docs") = some r →
      r = ascii "/srv/docs" := by
    intro log r hr
    change (enteringHost.find (ascii "/srv/docs")).map Node.path = some r at hr
    have hfind : (enteringHost.find (ascii "/srv/docs")).map Node.path = some (ascii "/srv/docs") :=
      by decide +kernel
    exact (Option.some.inj (hfind.symm.trans hr)).symm
  -- the next line is no `CWD`
  have hsyst : received enteringHost.os (Host.run enteringHost.os 3
      (Host.start enteringHost.os Host.argv)) = some (ascii "SYST" ++ crlf) := by decide +kernel
  have hrest : ∀ dir s1, ¬ Sets enteringHost.os (Host.run enteringHost.os 3
      (Host.start enteringHost.os Host.argv)) dir s1 := by
    intro dir s1 hs
    cases hs with
    | starting hcreated => exact absurd hcreated (by decide +kernel)
    | accepting _ hconnected => exact absurd hconnected (by decide +kernel)
    | entering hcall =>
      obtain ⟨-, -, hread, -, hfind⟩ := hcall
      obtain rfl := Option.some.inj (hread.symm.trans hsyst)
      have hfind' : commandFind (lineBuffer (ascii "SYST" ++ crlf)) = some (ascii "SYST", .syst) :=
        by decide
      exact absurd (Option.some.inj (hfind'.symm.trans hfind)) (by simp)
  have hturn : Turn enteringHost.os (Host.run enteringHost.os 3
      (Host.start enteringHost.os Host.argv)) (Host.run enteringHost.os 4
      (Host.start enteringHost.os Host.argv)) := Prod.ext (by decide +kernel) rfl
  have h := cwd_read_back_iff (Host.reachable_run (by decide +kernel)) hset hcanon
    (Prod.ext (by decide +kernel) rfl) (.step (.start rfl) ⟨hturn, hrest⟩)
  exact ⟨h.1.mpr (by decide), h.2 (by decide)⟩

/-- A machine on which the client enters the directory `/srv/%%`. -/
def percentHost : Host :=
  { nodes := [Host.srv, Host.node ["srv", "%%"] .dir [] (by decide)],
    reads := [some (ascii "CWD %%" ++ crlf)] }

/-- **The directory `/srv/%%` is entered, and is not read back**: what is printed is `/srv/%`. -/
theorem percent_not_read_back : ∃ s s1 s2, Reachable percentHost.os Host.argv s ∧
    Sets percentHost.os s (ascii "/srv/%%") s1 ∧ Turn percentHost.os s s2 ∧
    ¬ ReadsBack percentHost.os (ascii "/srv/%%") s2 := by
  have hread : received percentHost.os (Host.run percentHost.os 2
      (Host.start percentHost.os Host.argv)) = some (ascii "CWD %%" ++ crlf) := by decide +kernel
  have hcall := Called.mk (by decide +kernel) (by decide +kernel) hread (by decide)
    (show commandFind (lineBuffer (ascii "CWD %%" ++ crlf)) = some (ascii "CWD", .cwd) by decide)
  have hset := @Sets.entering _ _ _ _ _ _ _ ⟨0, strncpy [] 0 (ascii "/srv/%%") pathLenMax, 7⟩
    hcall (Prod.ext (by decide +kernel) rfl) rfl (Prod.ext (by decide +kernel) rfl)
  rw [cstr_strncpy (by decide) (by decide)] at hset
  refine ⟨_, _, _, Host.reachable_run (by decide +kernel), hset, Prod.ext (by decide +kernel) rfl,
    fun h => ?_⟩
  exact absurd h.text_eq (by decide +kernel)

end VsFtp
