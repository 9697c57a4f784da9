import VsFtp.Turns

/-!
# A working directory that cannot be printed

`VSFTPServerGetCwd` passes the working directory to `snprintf` as the format.  If it
contains a conversion for which there is no argument, the process may end there, and
with it the handling of every command that prints the directory.

## Main definitions

* `Unprintable` — the working directory has such a conversion, and the process does
  not survive it.

## Main results

* `commandHandle_dies` — the handlers that print the working directory do not return.
* `Called.dies` — **a turn in which such a handler is called does not return.**
-/

namespace VsFtp

open CString Prog

attribute [local irreducible] serverSendReply helpText

variable {os : Os} {s : St}

/-- The working directory has a conversion without an argument, and undefined
behaviour ends the process. -/
structure Unprintable (os : Os) (d : ServerData) : Prop where
  format : formatText d.cwd d.cwdLen = none
  length_pos : 0 < d.cwdLen
  length_lt : d.cwdLen < pathLenMax
  fatal : ∀ log, os.survives log = false

theorem Unprintable.kills (h : Unprintable os s.data) : PrintKills os s := ⟨h.format, h.fatal _⟩

theorem Unprintable.cwdLen (h : Unprintable os s.data) :
    0 < s.data.cwdLen ∧ s.data.cwdLen < pathLenMax := ⟨h.length_pos, h.length_lt⟩

/-! ### Printing -/

theorem printFormat_dies (h : PrintKills os s) :
    Dies os (printFormat s.data.cwd s.data.cwdLen : ServerM _) s := by
  unfold printFormat
  rw [h.1]
  refine Dies.bind ?_ _
  unfold undefinedBehaviour
  refine (wp_bind _ _).mpr ((wp_peek _).mpr (wp_ite (fun hs => ?_) fun _ => trivial))
  exact absurd (h.2.symm.trans hs) Bool.false_ne_true

theorem serverGetCwd_dies (h : PrintKills os s)
    (hcwd : 0 < s.data.cwdLen ∧ s.data.cwdLen < pathLenMax) {buf : List Byte} {len : ℕ} :
    Dies os (serverGetCwd buf pathLenMax len) s := by
  unfold serverGetCwd
  refine (wp_bind _ _).mpr (wp_getData.mpr (wp_ite (fun _ => ?_) fun hn => ?_))
  · exact (printFormat_dies h).bind _
  · exact absurd ⟨by decide, hcwd⟩ hn

/-- No directory can be entered. -/
theorem serverSetCwd_dies (h : PrintKills os s)
    (hcwd : 0 < s.data.cwdLen ∧ s.data.cwdLen < pathLenMax) {dir : List Byte} {len : ℕ} :
    Dies os (serverSetCwd dir len) s := by
  unfold serverSetCwd
  exact (serverGetCwd_dies h hcwd).bind _

/-- A relative argument cannot be resolved. -/
theorem resolveArg_dies (h : PrintKills os s)
    (hcwd : 0 < s.data.cwdLen ∧ s.data.cwdLen < pathLenMax) {args : List Byte} {len : ℕ}
    (hlen : 0 < len) (hrel : IsRelative os s args) : Dies os (do
      let path ← readString args
      serverServerPathToRealPath path len [] pathLenMax 0) s := by
  refine dies_seq wp_readString ?_
  rintro _ _ ⟨rfl, rfl⟩
  unfold serverServerPathToRealPath
  rw [if_pos ⟨hlen, by decide⟩, if_neg hrel]
  exact (serverGetCwd_dies h hcwd).bind _

/-! ### The handlers -/

theorem filePath_dies (h : PrintKills os s)
    (hcwd : 0 < s.data.cwdLen ∧ s.data.cwdLen < pathLenMax) {args : List Byte} {len : ℕ}
    (hlen : 0 < len) (hrel : IsRelative os s args) : Dies os (filePath args len) s := by
  unfold filePath
  rw [if_pos hlen, ← bind_assoc]
  exact (resolveArg_dies h hcwd hlen hrel).bind _

/-- `CWD` prints the directory to resolve a relative argument. -/
theorem commandHandlerCwd_dies_relative (h : PrintKills os s)
    (hcwd : 0 < s.data.cwdLen ∧ s.data.cwdLen < pathLenMax) {args : List Byte} {len : ℕ}
    (hlen : 0 < len) (hrel : IsRelative os s args) : Dies os (commandHandlerCwd args len) s := by
  unfold commandHandlerCwd
  rw [if_pos hlen]
  exact (resolveArg_dies h hcwd hlen hrel).bind _

/-- `CWD` prints the directory again to enter what the argument resolves to. -/
theorem commandHandlerCwd_dies_entering {args p r : List Byte} {len : ℕ}
    (hp : argTarget os s args len = some p) (hr : os.realpath s.log p = some r)
    (hlen : r.length < pathLenMax) (h : PrintKills os ⟨s.data, .realpath p (some r) :: s.log⟩)
    (hcwd : 0 < s.data.cwdLen ∧ s.data.cwdLen < pathLenMax) :
    Dies os (commandHandlerCwd args len) s := by
  have hpos := argTarget_pos hp
  unfold commandHandlerCwd
  rw [if_pos hpos]
  refine dies_seq (wp_resolveArg fun _ _ => trivial) ?_
  rintro out _ ⟨L, hres, rfl⟩
  cases hres with
  | failed _ hno => exact absurd ⟨p, hp, hr, hlen⟩ (hno r)
  | @found p' r' hp' hr' =>
    obtain rfl := Option.some.inj (hp.symm.trans hp')
    obtain rfl := Option.some.inj (hr.symm.trans hr')
    rw [onOk_zero]
    refine Dies.bind (dies_seq wp_readString fun realPath s' hs => ?_) _
    obtain ⟨-, rfl⟩ := hs
    exact serverSetCwd_dies h hcwd

/-- `CWD` does not return if it prints a directory whose printing kills the process. -/
theorem commandHandlerCwd_dies (h : Unprintable os s.data) {args : List Byte} {len : ℕ}
    (hp : Prints os s args len .cwd) : Dies os (commandHandlerCwd args len) s := by
  obtain ⟨hlen, hrel | ⟨r, p, htarget, hr, hrlen⟩⟩ := hp
  · exact commandHandlerCwd_dies_relative h.kills h.cwdLen hlen hrel
  · exact commandHandlerCwd_dies_entering htarget hr hrlen ⟨h.format, h.fatal _⟩ h.cwdLen

/-- `NLST` prints the directory whatever its argument is. -/
theorem commandHandlerNlst_dies (h : PrintKills os s)
    (hcwd : 0 < s.data.cwdLen ∧ s.data.cwdLen < pathLenMax) {args : List Byte} {len : ℕ} :
    Dies os (commandHandlerNlst args len) s := by
  have hpath : Dies os (nlstPath args len) s := (serverGetCwd_dies h hcwd).bind _
  exact hpath.bind _

/-- **The handlers that print the working directory do not return.** -/
theorem commandHandle_dies (h : Unprintable os s.data) {c : Command} {args : List Byte} {len : ℕ}
    (hp : Prints os s args len c) : Dies os (commandHandle c args len) s := by
  cases c with
  | pwd =>
    unfold commandHandle commandHandlerPwd
    exact (serverGetCwd_dies h.kills h.cwdLen).bind _
  | cwd => exact commandHandlerCwd_dies h hp
  | nlst => exact commandHandlerNlst_dies h.kills h.cwdLen
  | retr => exact (filePath_dies h.kills h.cwdLen hp.1 hp.2).bind _
  | size => exact (filePath_dies h.kills h.cwdLen hp.1 hp.2).bind _
  | user | syst | pasv | type | help | quit => exact hp.elim

/-! ### A turn -/

/-- A turn in which a handler is called that does not return does not return either. -/
theorem Called.dies_handler {c : Command} {args : List Byte} {len : ℕ} {s1 : St}
    (hcall : Called os s c args len s1) (h : Dies os (commandHandle c args len) s1) :
    Dies os serverHandler s := by
  refine wp_mono (hcall.wp h) ?_ fun _ _ => trivial
  rintro r s' ⟨-, r1, s2, hf, -⟩
  exact hf

/-- **A turn in which such a handler is called does not return.** -/
theorem Called.dies {c : Command} {args : List Byte} {len : ℕ} {s1 : St}
    (h : Unprintable os s.data) (hcall : Called os s c args len s1)
    (hp : Prints os s1 args len c) : Dies os serverHandler s := by
  rw [← hcall.data] at h
  exact hcall.dies_handler (commandHandle_dies h hp)

/-- The server does not start if it cannot print the directory it was in. -/
theorem serverHandler_dies_starting (hn : s.data.isServerSocketCreated = false)
    (h : PrintKills os ⟨s.data.unstarted, s.log⟩)
    (hcwd : 0 < s.data.cwdLen ∧ s.data.cwdLen < pathLenMax) : Dies os serverHandler s := by
  unfold serverHandler
  refine (wp_bind _ _).mpr (wp_getData.mpr ?_)
  rw [if_pos hn]
  unfold serverStart
  refine (wp_bind _ _).mpr ((wp_modifyData _).mpr ((wp_bind _ _).mpr (wp_getData.mpr ?_)))
  exact (serverSetCwd_dies h hcwd).bind _

/-- No client that is accepted is greeted. -/
theorem serverHandler_dies_connecting (hcreated : s.data.isServerSocketCreated = true)
    (hn : s.data.isConnected = false) (ha : 0 ≤ os.accept s.log s.data.serverSock)
    (h : PrintKills os ⟨acceptedData os s, acceptedLog os s⟩)
    (hcwd : 0 < s.data.cwdLen ∧ s.data.cwdLen < pathLenMax) : Dies os serverHandler s := by
  unfold serverHandler
  refine (wp_bind _ _).mpr (wp_getData.mpr ?_)
  rw [if_neg (by simp [hcreated]), if_pos hn]
  unfold waitForIncomingConnection
  refine (wp_bind _ _).mpr (wp_getData.mpr ((wp_bind _ _).mpr ((wp_call _ _).mpr
    ((wp_bind _ _).mpr ((wp_modifyData _).mpr ?_)))))
  rw [if_pos ha]
  exact (serverSetCwd_dies h hcwd).bind _

end VsFtp
