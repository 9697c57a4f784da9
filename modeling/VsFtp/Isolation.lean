import VsFtp.Availability
import VsFtp.Sizes
import VsFtp.Twins

/-!
# Sessions are isolated

Two servers that have been started alike, and that have seen different clients since, are run
against a new client that does the same with both.  They treat it alike, up to two things an
earlier client can leave behind: the transfer mode, which is set when the server is started but
not when a client is accepted, and the working directory, which is printed once more before it is
reset.

## Main definitions

* `RetrAnnounces` — `RETR` gets as far as its 150 reply.
* `Unaffected` — the turn of neither server shows what an earlier client has left behind.
* `History` — what an earlier client may have done.
* `Together` — two runs behind such histories, side by side.
* `writes` — what the clients are shown.

## Main results

* `rwp_commandHandle` — the handlers treat the client alike.
* `rwp_serverHandler` — a turn does.
* `session_isolation` — **so does a run, as long as its turns are unaffected.**
* `mode_left_behind` — the mode of an earlier client in a reply to a later one.
-/

namespace VsFtp

open CString Prog

attribute [local irreducible] serverSendReply helpText

variable {os os1 os2 : Os} {argv : Argv} {b1 b2 s1 s2 : St} {k : Shared} {args : List Byte}
  {len : ℕ}

/-- `RETR` gets as far as its announcement: the argument names a file, a data connection is
accepted, and the shorter one of the two texts fits. -/
def RetrAnnounces (os : Os) (s : St) (args : List Byte) (len : ℕ) : Prop :=
  (∃ r, NamesFile os s args len r) ∧ s.data.transferSock ≠ -1 ∧
    (∃ L, Lookups L ∧ 0 ≤ os.accept (L ++ s.log) s.data.transferSock) ∧
    (retrReply false (cstr args)).length + 2 < responseLenMax

theorem length_retrReply_false_le (isBinary : Bool) (path : List Byte) :
    (retrReply false path).length ≤ (retrReply isBinary path).length := by
  have htext : ∀ b : Bool, (ascii "150 ASCII mode data connection for ").length ≤
      (if b then ascii "150 BINARY mode data connection for "
        else ascii "150 ASCII mode data connection for ").length := by decide
  have h := htext isBinary
  unfold retrReply
  simp only [List.length_append, Bool.false_eq_true, if_false]
  omega

/-- The next turn of two servers shows nothing that earlier clients have left behind: neither of
them reads uninitialised memory or does anything undefined, and they have the same transfer mode
if `RETR` announces a transfer. -/
structure Unaffected (os1 os2 : Os) (s1 s2 : St) : Prop where
  determined1 : Determined os1 serverHandler s1
  determined2 : Determined os2 serverHandler s2
  mode : ∀ {args len u}, Called os1 s1 .retr args len u → RetrAnnounces os1 u args len →
    s1.data.transferModeBinary = s2.data.transferModeBinary

/-! ### Turns that are determined -/

theorem Called.holding {c : Command} {u : St} {memory : Memory} :
    Called (os.holding memory) s1 c args len u ↔ Called os s1 c args len u := by
  constructor <;> rintro ⟨hcreated, hc, hread, hline, hfind⟩ <;>
    exact .mk hcreated hc hread hline hfind

/-- A transfer that has something to send accepts a data connection. -/
theorem Transferred.accepts {B : Int → Log → Int → List Event → Prop} {r0 r : Int} {s s' : St}
    (h : Transferred os B r0 s r s') (h0 : r0 = 0) (ht : s.data.transferSock ≠ -1) :
    ∃ N, s'.log = N ++ s.log ∧ ∃ e ∈ N, e.kind = .accept := by
  have hwhole : ∀ {X Y T : List Event}, Event.accept .transferClient s.data.transferSock
      (os.accept s.log s.data.transferSock) ∈ T → ∀ w : Event,
      ∃ N, w :: (Y ++ (X ++ (T ++ s.log))) = N ++ s.log ∧ ∃ e ∈ N, e.kind = .accept :=
    fun {X Y T} he w => ⟨w :: (Y ++ (X ++ T)), by simp, _, List.mem_cons_of_mem w
      (List.mem_append_right Y (List.mem_append_right X he)), rfl⟩
  cases h with
  | mk hT hX hY =>
    cases hT with
    | skipped hne => exact absurd h0 hne
    | unconnected hA =>
      cases hA with
      | absent hno => exact absurd hno ht
      | refused => exact hwhole (List.mem_singleton_self _) _
    | unannounced => exact hwhole (by simp) _
    | transferred => exact hwhole (by simp) _

/-- A transfer that has nothing to send adds the records of closing and one reply. -/
theorem Transferred.adds_skipped {B : Int → Log → Int → List Event → Prop} {r0 r : Int} {s s' : St}
    (h : Transferred os B r0 s r s') (h0 : r0 ≠ 0) : Adds [.close, .write] s.log s'.log := by
  cases h with
  | mk hT hX hY =>
    cases hT with
    | skipped =>
      exact ((Adds.mk (hX.ofKind.mono (by decide))).append (hY.ofKind.mono (by decide))).cons
        (by simp [Event.kind])
    | _ => exact absurd rfl h0

/-- **In a determined turn `RETR` finds a file if it would with nothing in memory**: otherwise it
would not accept a data connection. -/
theorem exists_namesFile {s u : St} {r : List Byte} (hdet : Determined os serverHandler s)
    (hcall : Called os s .retr args len u) (hsock : u.data.transferSock ≠ -1)
    (h : NamesFile (os.holding .blank) u args len r) : ∃ r, NamesFile os u args len r := by
  by_contra hno
  have hfound : Prog.wp (os.holding .blank) serverHandler (fun r s' => r = 0 ∧ ∃ r1 s2,
      (∃ N, s2.log = N ++ u.log ∧ ∃ e ∈ N, e.kind = .accept) ∧ Handled s2 r1 s')
      (fun _ => False) s := by
    refine wp_mono ((Called.holding.mpr hcall).wp (Q := fun _ s2 => ∃ N, s2.log = N ++ u.log ∧
      ∃ e ∈ N, e.kind = .accept) (E := fun _ => False) (wp_mono wp_commandHandlerRetr ?_ ?_))
      (fun _ _ h => h) ?_
    · rintro r1 s2 ⟨out, L, hpath, htransfer⟩
      cases hpath with
      | unfound _ _ hno => exact absurd h (hno _)
      | found =>
        obtain ⟨N, hN, e, he, hkind⟩ := htransfer.accepts rfl hsock
        exact ⟨N ++ _, hN.trans (List.append_assoc _ _ _).symm, e,
          List.mem_append_left _ he, hkind⟩
    · exact fun s' hk => hk.2.1 (Or.inr fun _ => rfl)
    · rintro s' (hk | ⟨_, _, _, hk⟩)
      · exact hk
      · exact absurd (show true = false from hk) (by decide)
  obtain ⟨_, s', hrun, rfl, r1, s2, ⟨N, hN, e, he, hkind⟩, hh⟩ := exists_run_of_wp hfound
  rw [hdet .blank] at hrun
  have hunfound : Prog.wp os (commandHandle .retr args len)
      (fun _ s2 => Adds [.lookup, .close, .write, .result] u.log s2.log) (fun _ => True) u := by
    refine wp_mono wp_commandHandlerRetr ?_ fun _ _ => trivial
    rintro r1 s2 ⟨out, L, hpath, htransfer⟩
    cases hpath with
    | unfound hne hL =>
      exact (Adds.mk (hL.ofKind.mono (by decide))).trans
        ((htransfer.adds_skipped hne).mono (by decide))
    | found h => exact absurd ⟨_, h⟩ hno
  obtain ⟨r1', s2', hadds, hh'⟩ := hcall.of_turn hunfound hrun
  -- the same records cannot contain the call and not contain it
  obtain ⟨M, hM, -⟩ := hh.adds
  obtain ⟨N', hN', hkinds⟩ := hadds.trans (hh'.adds.mono (by decide))
  rw [hM, hN, ← List.append_assoc] at hN'
  obtain rfl := List.append_cancel_right hN'
  exact absurd (hkind ▸ hkinds e (List.mem_append_right _ he)) (by decide)

section Handlers

variable (hsame : SameWorlds os1 os2 b1 b2)

include hsame

/-! ### Handlers without file access -/

theorem kept_commandHandlerUser : Kept os1 os2 b1 b2 k (commandHandlerUser args len) := by
  refine .ite (kept_serverSendReply hsame) (.bind (kept_serverSendReply hsame) fun _ => ?_)
  exact .bind (kept_serverClientDisconnect hsame) fun _ => .pure _

theorem kept_commandHandlerPasv (args : List Byte) (len : ℕ) :
    Kept os1 os2 b1 b2 k (commandHandlerPasv args len) := by
  have hcreate : Kept os1 os2 b1 b2 k.connecting (serverCreateTransferSocket pasvPortNumber) := by
    refine .reads (fun _ _ h => ?_) fun d => .ite (kept_createPassiveSocket hsame) (.pure _)
    simp only [h.transferSock]
  have henter : Kept os1 os2 b1 b2 k.connecting (pasvEntering pasvPortNumber) := by
    refine .bind (kept_serverGetServerIP4 hsame) fun out => .ite ?_ (kept_serverSendReply hsame)
    exact .bind (kept_readString hsame) fun _ => kept_serverSendReply hsame
  refine kept_closing hsame (.bind (kept_closeSocket hsame (by simp)) fun _ => ?_)
  exact .bind hcreate fun _ => .ite henter (kept_serverSendReply hsame)

theorem kept_commandHandlerPwd (hk : k.cwd = true) (args : List Byte) (len : ℕ) :
    Kept os1 os2 b1 b2 k (commandHandlerPwd args len) := by
  refine .bind (kept_serverGetCwd hsame hk) fun cwd => ?_
  refine .bind (.ite (kept_serverRealPathToServerPath hsame) (.pure _)) fun out => ?_
  refine .ite (.bind (kept_readString hsame) fun _ => ?_) (kept_serverSendReply hsame)
  exact kept_serverSendReply hsame

theorem kept_commandHandlerType : Kept os1 os2 b1 b2 k (commandHandlerType args len) := by
  have hset : ∀ binary, Kept os1 os2 b1 b2 k (serverSetTransferMode binary) := fun binary =>
    .bind (.modifyData fun _ _ h => h.setMode binary) fun _ => .pure _
  refine .ite (.bind (kept_serverSendReply hsame) fun _ => .onOk (hset true)) (.ite ?_ ?_)
  · exact .bind (kept_serverSendReply hsame) fun _ => .onOk (hset false)
  · exact kept_serverSendReply hsame

theorem kept_commandHandlerHelp (args : List Byte) (len : ℕ) :
    Kept os1 os2 b1 b2 k (commandHandlerHelp args len) := by
  unfold commandHandlerHelp
  cases helpText with
  | none => exact .pure _
  | some buf => exact .bind (kept_sendReplyOwnBuf hsame (by simp)) fun _ => .pure _

/-! ### Handlers with file access -/

theorem kept_filePath (hk : k.cwd = true) : Kept os1 os2 b1 b2 k (filePath args len) := by
  refine .ite (.bind (kept_readString hsame) fun path => ?_) (.pure _)
  refine .bind (kept_serverServerPathToRealPath hsame hk) fun out => .ite (.pure _) ?_
  refine .bind (kept_readString hsame) fun realPath => ?_
  exact .bind (kept_filesystemHasKind hsame) fun _ => .pure _

theorem kept_commandHandlerCwd (hk : k.cwd = true) :
    Kept os1 os2 b1 b2 k (commandHandlerCwd args len) := by
  refine .bind (.ite (.bind (kept_readString hsame) fun path =>
    kept_serverServerPathToRealPath hsame hk) (.pure _)) fun out => ?_
  refine .bind (.onOk (.bind (kept_readString hsame) fun _ =>
    kept_serverSetCwd hsame hk)) fun _ => ?_
  exact .ite (kept_serverSendReply hsame) (kept_serverSendReply hsame)

theorem kept_commandHandlerSize (hk : k.cwd = true) :
    Kept os1 os2 b1 b2 k (commandHandlerSize args len) := by
  refine .bind (kept_filePath hsame hk) fun out => ?_
  refine .ite (.bind (kept_call hsame fun h => congrFun h.stat _) fun filestats => ?_)
    (kept_serverSendReply hsame)
  cases filestats with
  | none => exact kept_serverSendReply hsame
  | some st => exact kept_serverSendReply hsame

/-! ### Transfers -/

theorem kept_nlstBody (hk : k.client = true) {lpath : List Byte} {llen : ℕ} {l : Listing} :
    Kept os1 os2 b1 b2 k (nlstBody lpath llen len l) := by
  refine .bind (kept_filesystemListDirPerLine hsame) fun out => .ite (.pure _) (.ite ?_ ?_)
  · refine .bind (kept_serverRealPathToServerPath hsame) fun path => .ite ?_ (.pure _)
    exact .bind (kept_sendReplyOwnBuf hsame fun _ => hk) fun _ => .pure _
  · exact .bind (kept_sendReplyOwnBuf hsame fun _ => hk) fun _ => .pure _

/-- Listing a directory, by induction on the rounds. -/
theorem kept_nlstWhile (hk : k.client = true) {lpath : List Byte} {llen fuel : ℕ} :
    ∀ {l : Listing}, Kept os1 os2 b1 b2 k (nlstWhile lpath llen len fuel l) := by
  induction fuel with
  | zero => exact fun {_} => .ite (.pure _) (.stop fun _ _ h => h.ends)
  | succ fuel ih =>
    exact fun {_} => .ite (.pure _)
      (.bind (kept_nlstBody hsame hk) fun _ => .ite (.pure _) ih)

theorem kept_nlstLoop (hk : k.client = true) {lpath : List Byte} {llen : ℕ} :
    Kept os1 os2 b1 b2 k (nlstLoop lpath llen len) :=
  .bind (kept_nlstBody hsame hk) fun _ => .ite (.pure _) (kept_nlstWhile hsame hk)

theorem kept_nlstPath (hk : k.cwd = true) : Kept os1 os2 b1 b2 k (nlstPath args len) := by
  refine .bind (kept_serverGetCwd hsame hk) fun cwd => .ite (.ite ?_ (.pure _)) (.pure _)
  refine .bind (kept_readString hsame) fun path => ?_
  refine .bind (kept_serverServerPathToRealPath hsame hk) fun out => ?_
  refine .bind (.onOk (.bind (kept_readString hsame) fun _ => kept_filesystemHasKind hsame))
    fun _ => ?_
  exact .bind (.onOk kept_serverAbsPathIsNotAboveRootPath) fun _ => .pure _

/-- **Transfers.**  The announcement need only be alike if it is reached. -/
theorem rwp_transferCommand {r0 : Int} {announce transfer : ServerM Int}
    {reply : Int → ServerM Int} (h : Twins b1 b2 k s1 s2)
    (hannounce : r0 = 0 → s1.data.transferSock ≠ -1 →
      0 ≤ os1.accept s1.log s1.data.transferSock → ∀ t1 t2, Twins b1 b2 k.connecting t1 t2 →
      rwp os1 os2 announce announce (fun _ => Twins b1 b2 k.connecting) (Ends b1 b2) t1 t2)
    (htransfer : Kept os1 os2 b1 b2 k.connecting transfer)
    (hreply : ∀ retval, Kept os1 os2 b1 b2 k.connecting (reply retval)) :
    rwp os1 os2 (transferCommand r0 announce transfer reply)
      (transferCommand r0 announce transfer reply) (fun _ => Twins b1 b2 k) (Ends b1 b2) s1 s2 := by
  have hend : ∀ {retval : Int} {t1 t2 : St}, Twins b1 b2 k t1 t2 → rwp os1 os2 (do
        let _ ← serverCloseTransferClientSocket
        let _ ← serverCloseTransferSocket
        reply retval) (do
        let _ ← serverCloseTransferClientSocket
        let _ ← serverCloseTransferSocket
        reply retval) (fun _ => Twins b1 b2 k) (Ends b1 b2) t1 t2 := by
    intro retval t1 t2 h
    exact kept_closing hsame (.bind (kept_closeSocket hsame (by simp)) fun _ => hreply retval) h
  by_cases h0 : r0 = 0
  · subst h0
    unfold transferCommand
    rw [onOk_zero]
    refine rwp_seq (rwp_serverAccept hsame h) ?_
    rintro retval t1 t2 ⟨ht, hacc⟩
    by_cases hr : retval = 0
    · subst hr
      obtain ⟨hsock, haccept⟩ := hacc rfl
      rw [if_pos rfl] at ht
      rw [onOk_zero]
      refine rwp_seq (hannounce rfl hsock haccept t1 t2 ht) fun _ _ _ ht => ?_
      exact rwp_seq (Keeps.onOk htransfer ht) fun _ _ _ ht => hend ht.of_connecting
    · rw [if_neg hr] at ht
      simp only [onOk_of_ne hr, pure_bind]
      exact hend ht
  · unfold transferCommand
    simp only [onOk_of_ne h0, pure_bind]
    exact hend h

theorem kept_commandHandlerNlst (hk : k.cwd = true) :
    Kept os1 os2 b1 b2 k (commandHandlerNlst args len) := by
  refine .bind (kept_nlstPath hsame hk) fun out => .bind (kept_readString hsame) fun lpath => ?_
  intro t1 t2 ht
  refine rwp_transferCommand hsame ht (fun _ _ _ _ _ ht => kept_serverSendReply hsame ht)
    (kept_nlstLoop hsame rfl) fun retval => ?_
  exact .ite (kept_serverSendReply hsame) (kept_serverSendReply hsame)

/-- The announcement in a mode that is shared. -/
theorem kept_retrAnnounce (hk : k.mode = true) : Kept os1 os2 b1 b2 k (retrAnnounce args) := by
  unfold retrAnnounce serverGetTransferMode
  simp only [bind_assoc, pure_bind]
  refine .reads (fun _ _ h => ?_) fun d => ?_
  · simp only [h.mode hk]
  · exact .bind (kept_readString hsame) fun _ => kept_serverSendReply hsame

/-- **`RETR` treats the client alike** if the mode is shared, or not told to the client. -/
theorem rwp_commandHandlerRetr (hk : k.cwd = true) (hargs : 0 < len → (0 : Byte) ∈ args)
    (hmode : RetrAnnounces os1 s1 args len →
      s1.data.transferModeBinary = s2.data.transferModeBinary) (h : Twins b1 b2 k s1 s2) :
    rwp os1 os2 (commandHandlerRetr args len) (commandHandlerRetr args len)
      (fun _ => Twins b1 b2 k) (Ends b1 b2) s1 s2 := by
  have hreply : ∀ {k : Shared} {isFileError : Bool} (retval : Int), Kept os1 os2 b1 b2 k
      (if retval = 0 then serverSendReply (ascii "226 Transfer Complete.")
        else serverSendReply (if isFileError then ascii "551 File not found." else localError)) :=
    fun _ => .ite (kept_serverSendReply hsame) (kept_serverSendReply hsame)
  rw [commandHandlerRetr_eq]
  by_cases hshared : s1.data.transferModeBinary = s2.data.transferModeBinary
  · have h' : Twins b1 b2 { k with mode := true } s1 s2 :=
      ⟨h.core, h.cwd, fun _ => hshared, h.client⟩
    refine rwp_mono (Q := fun _ => Twins b1 b2 { k with mode := true }) ?_
      (fun _ _ _ ht => ht.mono (fun _ => hk) (fun _ => rfl) id) fun _ _ h => h
    refine rwp_seq (kept_filePath hsame (k := { k with mode := true }) hk h') fun out t1 t2 ht => ?_
    exact rwp_transferCommand hsame ht (fun _ _ _ _ _ ht => kept_retrAnnounce hsame rfl ht)
      (kept_serverSendfileTransfer hsame rfl) hreply
  · refine rwp_seq (rwp_wp (kept_filePath hsame hk h)
      (wp_filePath (E := fun _ => True) fun _ _ => trivial)) ?_
    rintro ⟨out, isFileError⟩ t1 t2 ⟨ht, L, hpath, rfl⟩
    refine rwp_transferCommand hsame ht (fun h0 hsock haccept u1 u2 hu => ?_)
      (kept_serverSendfileTransfer hsame rfl) hreply
    -- the announcement does not fit, so nothing is said of the mode
    have hL := hpath.lookups
    cases hpath with
    | unfound hne => exact absurd h0 hne
    | @found p r st hr =>
      have hlong : ∀ d, ¬ Announceable d args := fun d hfit => hshared (hmode
        ⟨⟨r, hr⟩, hsock, ⟨_, hL, haccept⟩, Nat.lt_of_le_of_lt
          (Nat.add_le_add_right (length_retrReply_false_le _ _) 2) hfit⟩)
      have hrun : ∀ {os : Os} {u : St}, retrAnnounce args os u = (some (-1), u) := by
        intro os u
        obtain ⟨r, u', hrun, hr⟩ := exists_run_of_wp (wp_retrAnnounce (hargs hr.spec.1))
        rw [if_neg (hlong u.data)] at hr
        rw [hrun, hr.1, hr.2]
      exact (rwp_of_returns hrun hrun).mpr hu

/-- **The handlers treat the client alike.** -/
theorem rwp_commandHandle {c : Command} (hk : k.cwd = true) (hargs : 0 < len → (0 : Byte) ∈ args)
    (hmode : c = .retr → RetrAnnounces os1 s1 args len →
      s1.data.transferModeBinary = s2.data.transferModeBinary) (h : Twins b1 b2 k s1 s2) :
    rwp os1 os2 (commandHandle c args len) (commandHandle c args len) (fun _ => Twins b1 b2 k)
      (Ends b1 b2) s1 s2 := by
  cases c with
  | user => exact kept_commandHandlerUser hsame h
  | syst => exact kept_serverSendReply hsame h
  | pasv => exact kept_commandHandlerPasv hsame args len h
  | nlst => exact kept_commandHandlerNlst hsame hk h
  | pwd => exact kept_commandHandlerPwd hsame hk args len h
  | cwd => exact kept_commandHandlerCwd hsame hk h
  | retr => exact rwp_commandHandlerRetr hsame hk hargs (hmode rfl) h
  | size => exact kept_commandHandlerSize hsame hk h
  | type => exact kept_commandHandlerType hsame h
  | help => exact kept_commandHandlerHelp hsame args len h
  | quit => exact kept_serverSendReply hsame h

/-! ### A line -/

theorem rwp_commandsParse (hk : k.cwd = true) {buffer : List Byte} {n : ℕ}
    (hcall : ∀ {name c}, commandFind buffer = some (name, c) →
      (0 < argsLen (lineArgs buffer n name) → (0 : Byte) ∈ argsArray buffer n name) ∧
      (c = .retr → RetrAnnounces os1 (calledState s1 buffer n name c) (argsArray buffer n name)
          (argsLen (lineArgs buffer n name)) → k.mode = true))
    (h : Twins b1 b2 k s1 s2) :
    rwp os1 os2 (commandsParse buffer n) (commandsParse buffer n)
      (fun _ => Twins b1 b2 k) (Ends b1 b2) s1 s2 := by
  have hrequest := h.push (.request buffer n)
  unfold commandsParse
  refine (rwp_emit_bind _).mpr ?_
  cases hfind : commandFind buffer with
  | none => exact rwp_seq (kept_serverSendReply hsame hrequest) fun _ _ _ h => (rwp_pure _).mpr h
  | some entry =>
    obtain ⟨name, c⟩ := entry
    obtain ⟨hargs, hmode⟩ := hcall hfind
    have hcalled : Twins b1 b2 k (calledState s1 buffer n name c)
        (calledState s2 buffer n name c) := hrequest.push (.dispatch c (lineArgs buffer n name))
    have hcommand : rwp os1 os2 (commandHandle c (argsArray buffer n name)
        (argsLen (lineArgs buffer n name))) (commandHandle c (argsArray buffer n name)
        (argsLen (lineArgs buffer n name))) (fun _ => Twins b1 b2 k) (Ends b1 b2)
        (calledState s1 buffer n name c) (calledState s2 buffer n name c) :=
      rwp_commandHandle hsame hk hargs (fun hc hann => h.mode (hmode hc hann)) hcalled
    unfold calledState argsArray lineArgs at hcommand
    refine rwp_ite (fun hn => (rwp_emit_bind _).mpr ?_) (fun hn => (rwp_emit_bind _).mpr ?_)
    · rw [if_pos hn, if_pos hn, argsLen_some] at hcommand
      exact hcommand
    · rw [if_neg hn, if_neg hn, argsLen_none] at hcommand
      exact hcommand

theorem rwp_handleLine {buffer : List Byte} {n : ℕ} (hn : n - 2 < requestLenMax)
    (hparse : rwp os1 os2 (commandsParse (overwrite buffer (n - 2) [0]) (n - 2))
      (commandsParse (overwrite buffer (n - 2) [0]) (n - 2)) (fun _ => Twins b1 b2 k)
      (Ends b1 b2) ⟨s1.data, .index (n - 2) :: s1.log⟩ ⟨s2.data, .index (n - 2) :: s2.log⟩) :
    rwp os1 os2 (handleLine buffer n) (handleLine buffer n) (fun _ => Twins b1 b2 k)
      (Ends b1 b2) s1 s2 := by
  unfold handleLine storeRequest
  simp only [if_pos hn, bind_assoc, pure_bind]
  refine (rwp_emit_bind _).mpr (rwp_seq hparse fun retval t1 t2 ht => ?_)
  refine (rwp_emit_bind _).mpr (rwp_ite (fun _ => ?_) fun _ => (rwp_pure _).mpr (ht.push _))
  have hkept : Kept os1 os2 b1 b2 k (do
      let _ ← serverCloseTransferClientSocket
      let _ ← serverCloseTransferSocket
      pure (0 : Int)) :=
    kept_closing hsame (.bind (kept_closeSocket hsame (by simp)) fun _ => .pure _)
  exact hkept (ht.push _)

theorem kept_storeRequest {buffer : List Byte} {i : ℕ} {b : Byte} :
    Kept os1 os2 b1 b2 k (storeRequest buffer i b) := by
  refine .bind (kept_emit _) fun _ => .ite (.pure _) ?_
  exact .bind (kept_undefinedBehaviour hsame) fun _ => .pure _

/-- What is not a line. -/
theorem kept_notLine {retval : Int} : Kept os1 os2 b1 b2 k (do
    let errno ← getErrno
    if errno = eagain then pure retval
    else do
      let _ ← serverStop
      pure retval) := by
  refine .bind (kept_peek hsame (·.errno)) fun _ => .ite (.pure _) ?_
  exact .bind (kept_serverStop hsame) fun _ => .pure _

omit hsame in
theorem kept_examine {retval : Int} {buffer bytes : List Byte} : Kept os1 os2 b1 b2 k
    (if retval = 0 ∧ bytes.length > 2 then endsLine buffer bytes.length else pure false) :=
  .ite (.bind (kept_emit _) fun _ => .bind (kept_emit _) fun _ => .pure _) (.pure _)

/-- What is done with something that is not a line. -/
theorem kept_unread {retval : Int} {bytes : List Byte} : Kept os1 os2 b1 b2 k
    (if retval = 0 ∧ bytes.length = 0 then do
        let _ ← serverClientDisconnect
        pure retval
      else do
        let errno ← getErrno
        if errno = eagain then pure retval
        else do
          let _ ← serverStop
          pure retval) :=
  .ite (.bind (kept_serverClientDisconnect hsame) fun _ => .pure _) (kept_notLine hsame)

theorem rwp_handleConnection (hk : k.cwd = true)
    (hcreated : s1.data.isServerSocketCreated = true)
    (hconnected : s1.data.isConnected = true) (hmode : ∀ {args len u},
      Called os1 s1 .retr args len u → RetrAnnounces os1 u args len → k.mode = true)
    (h : Twins b1 b2 k s1 s2) :
    rwp os1 os2 handleConnection handleConnection (fun _ => Twins b1 b2 k)
      (Ends b1 b2) s1 s2 := by
  unfold handleConnection
  refine rwp_getData.mpr ?_
  rw [← h.clientSock]
  -- the read is the same on both sides, which hold the same client
  have hreceive : wp os1 (receiveOwnSock s1.data.clientSock requestLenMax) (fun out t =>
      out = (readStatus (received os1 s1), (received os1 s1).getD []) ∧
      t = ⟨s1.data, .read s1.data.clientSock requestLenMax (received os1 s1) :: s1.log⟩)
      (fun _ => False) s1 := by
    unfold receiveOwnSock
    refine (wp_bind _ _).mpr ((wp_call _ _).mpr ?_)
    cases hread : os1.read s1.log s1.data.clientSock requestLenMax with
    | none => exact ⟨by rw [received, hread]; rfl, by rw [received, hread]⟩
    | some bytes => exact ⟨by rw [received, hread]; rfl, by rw [received, hread]⟩
  refine rwp_seq (rwp_wp (kept_receiveOwnSock hsame h) hreceive) ?_
  rintro _ _ t2 ⟨ht, rfl, rfl⟩
  cases hread : received os1 s1 with
  | none =>
    rw [hread] at ht
    refine rwp_seq (kept_storeRequest hsame ht) fun buffer t1 t2 ht => ?_
    have hno : ∀ b : ServerM Bool, (if readStatus none = 0 ∧ ((none : Option (List Byte)).getD
      []).length > 2 then b else pure false) = pure false := fun b => if_neg (by decide)
    rw [hno, pure_bind, if_neg Bool.false_ne_true]
    exact kept_unread hsame ht
  | some bytes =>
    have hle : bytes.length ≤ requestLenMax := os1.read_length_le hread
    rw [hread] at ht
    refine rwp_seq (rwp_wp (kept_storeRequest hsame ht)
      (wp_mono wp_storeRequest_nul (fun _ _ h => h) fun _ _ => trivial)) ?_
    rintro _ _ t2 ⟨ht, rfl, rfl⟩
    refine rwp_seq (rwp_wp (F := fun _ => True) (kept_examine ht) wp_examine) ?_
    rintro isLine _ t2 ⟨ht, hline, rfl⟩
    refine rwp_ite (fun h1 => ?_) (fun _ => kept_unread hsame ht)
    have hline' := hline.mp h1
    have hlen : 2 < bytes.length := hline'.1
    refine rwp_handleLine hsame (show bytes.length - 2 < requestLenMax by omega) ?_
    refine rwp_commandsParse hsame hk (fun {name c} hfind => ?_) (ht.push _)
    -- the turn calls this handler, so the modes agree if it announces a transfer
    have hcall : Called os1 s1 c _ _ _ := .mk hcreated hconnected hread hline' hfind
    refine ⟨fun hpos => hcall.terminated hpos, fun hc hann => ?_⟩
    subst hc
    exact hmode hcall hann

/-! ### Starting and waiting -/

/-- What the servers share at the head of the loop. -/
def Paired (b1 b2 s1 s2 : St) : Prop := Twins b1 b2 ⟨s1.data.isConnected, false, false⟩ s1 s2

omit hsame in
theorem Twins.paired (h : Twins b1 b2 k s1 s2) (hk : s1.data.isConnected = true → k.cwd = true) :
    Paired b1 b2 s1 s2 := h.mono hk (fun h => absurd h Bool.false_ne_true)
    fun h => absurd h Bool.false_ne_true

/-- **Starting.** -/
theorem rwp_serverStart (hd : Configured s1.data) (hprint1 : Printable os1 s1.data)
    (hprint2 : Printable os2 s2.data) (h : Twins b1 b2 k s1 s2) :
    rwp os1 os2 serverStart serverStart (fun r t1 t2 => Ends b1 b2 t1 t2 ∧
      (r = 0 → Paired b1 b2 t1 t2)) (Ends b1 b2) s1 s2 := by
  have hunstarted := h.update (f := ServerData.unstarted)
    ⟨fun _ => rfl, fun _ => ⟨rfl, rfl⟩, fun _ => rfl, fun _ => rfl⟩
  have hset : Kept os1 os2 b1 b2 k.entering (do
      modifyData fun d => { d with transferModeBinary := true }
      let d ← getData
      createPassiveSocket d.port .server) := by
    refine .bind (.modifyData fun _ _ h => h.setMode true) fun _ =>
      .reads (fun _ _ h => ?_) fun d =>
      kept_createPassiveSocket hsame
    simp only [h.port]
  have hcreated : ∀ {r : Int}, Kept os1 os2 b1 b2 k.entering (do
      modifyData fun d => { d with isServerSocketCreated := true }
      pure r) := fun {_} => .bind (kept_modify
        ⟨fun _ => rfl, fun _ => ⟨rfl, rfl⟩, fun _ => rfl, fun _ => rfl⟩) fun _ => .pure _
  unfold serverStart
  refine rwp_seq (Q := fun _ t1 t2 => t1 = ⟨s1.data.unstarted, s1.log⟩ ∧
    t2 = ⟨s2.data.unstarted, s2.log⟩) ((rwp_modifyData _).mpr ⟨rfl, rfl⟩) ?_
  rintro _ _ _ ⟨rfl, rfl⟩
  refine rwp_getData.mpr ?_
  rw [← hunstarted.rootPath, ← hunstarted.rootPathLen]
  -- from here on the working directories agree, and the modes as soon as they are set
  refine rwp_seq (rwp_serverSetCwd hsame hd.isAbsPath (hprint1.not_kills ⟨rfl, rfl⟩)
      (hprint2.not_kills ⟨rfl, rfl⟩)
    hunstarted) fun r t1 t2 ht => ?_
  by_cases hr : r = 0
  · subst hr
    rw [if_pos rfl] at ht
    rw [onOk_zero]
    refine rwp_seq (hset ht) fun r t1 t2 ht => ?_
    exact rwp_mono (Keeps.onOk hcreated ht)
      (fun _ _ _ h => ⟨h.ends, fun _ => h.paired fun _ => rfl⟩)
      fun _ _ h => h
  · rw [if_neg hr] at ht
    simp only [onOk_of_ne hr, pure_bind]
    exact (rwp_pure _).mpr ⟨ht.ends, fun h => absurd h hr⟩

/-- **Waiting for a client.** -/
theorem rwp_waitForIncomingConnection (hd : Configured s1.data)
    (hconnected : s1.data.isConnected = false)
    (hprint1 : Printable os1 s1.data) (hprint2 : Printable os2 s2.data)
    (h : Twins b1 b2 k s1 s2) : rwp os1 os2 waitForIncomingConnection waitForIncomingConnection
      (fun r t1 t2 =>
      Ends b1 b2 t1 t2 ∧ (r = 0 → Paired b1 b2 t1 t2)) (Ends b1 b2) s1 s2 := by
  unfold waitForIncomingConnection
  refine rwp_getData.mpr ?_
  rw [← h.serverSock, ← h.rootPath, ← h.rootPathLen]
  refine rwp_seq (Q := fun r t1 t2 => r = os1.accept s1.log s1.data.serverSock ∧
      t1 = ⟨s1.data, .accept .server s1.data.serverSock r :: s1.log⟩ ∧
      t2 = ⟨s2.data, .accept .server s1.data.serverSock r :: s2.log⟩)
    (rwp_call (congrFun (hsame _ _ h.ends).accept _) fun r hr => ⟨hr, rfl, rfl⟩) ?_
  rintro sock _ _ ⟨hsock, rfl, rfl⟩
  have haccepted := (h.push (.accept .server s1.data.serverSock sock)).update
    (f := fun d => { d with clientSock := sock })
    ⟨fun _ => rfl, fun _ => ⟨rfl, rfl⟩, fun _ => rfl, fun _ => rfl⟩
  refine rwp_seq (Q := fun _ t1 t2 =>
      t1 = ⟨{ s1.data with clientSock := sock },
        .accept .server s1.data.serverSock sock :: s1.log⟩ ∧
      t2 = ⟨{ s2.data with clientSock := sock }, .accept .server s1.data.serverSock sock :: s2.log⟩)
    ((rwp_modifyData _).mpr ⟨rfl, rfl⟩) ?_
  rintro _ _ _ ⟨rfl, rfl⟩
  refine rwp_ite (fun hpos => ?_) (fun _ => ?_)
  · -- there is a client, and the working directory is the root again on both sides
    have hgreet : ∀ {r : Int}, Kept os1 os2 b1 b2 k.entering (do
        modifyData fun d => { d with isConnected := true }
        pure r) := fun {_} => .bind (kept_modify
          ⟨fun _ => rfl, fun _ => ⟨rfl, rfl⟩, fun _ => rfl, fun _ => rfl⟩) fun _ => .pure _
    refine rwp_seq (rwp_serverSetCwd hsame hd.isAbsPath (hprint1.not_kills ⟨rfl, rfl⟩)
      (hprint2.not_kills ⟨rfl, rfl⟩)
      haccepted) fun r t1 t2 ht => ?_
    by_cases hr : r = 0
    · subst hr
      rw [if_pos rfl] at ht
      rw [onOk_zero]
      refine rwp_seq (kept_serverSendReply hsame ht) fun r t1 t2 ht => ?_
      exact rwp_mono (Keeps.onOk hgreet ht)
        (fun _ _ _ h => ⟨h.ends, fun _ => h.paired fun _ => rfl⟩) fun _ _ h => h
    · rw [if_neg hr] at ht
      simp only [onOk_of_ne hr, pure_bind]
      exact (rwp_pure _).mpr ⟨ht.ends, fun h => absurd h hr⟩
  · -- there was no client, or the server stops
    have hwaits : ∀ {t1 t2 : St}, Twins b1 b2 k t1 t2 → t1.data.isConnected = false →
        Ends b1 b2 t1 t2 ∧ ((0 : Int) = 0 → Paired b1 b2 t1 t2) := fun ht hc =>
      ⟨ht.ends, fun _ => ht.paired fun h => absurd (hc.symm.trans h) (by decide)⟩
    refine rwp_seq (rwp_wp (P := fun _ t => t.data.isConnected = false) (F := fun _ => True)
      (kept_peek hsame (·.errno) haccepted) ((wp_peek _).mpr hconnected))
      fun errno t1 t2 ⟨ht, hc⟩ => ?_
    refine rwp_ite (fun _ => (rwp_pure _).mpr (hwaits ht hc)) (fun _ => ?_)
    · refine rwp_seq (rwp_wp (F := fun _ => True) (kept_serverStop hsame ht) wp_serverStop) ?_
      rintro _ _ t2 ⟨ht, hstops⟩
      exact (rwp_pure _).mpr (hwaits ht (by cases hstops; rfl))

/-- **A turn treats the client alike** if it shows neither what an earlier client has left. -/
theorem rwp_serverHandler (hd : Configured s1.data) (hprint1 : Printable os1 s1.data)
    (hprint2 : Printable os2 s2.data) (hmode : ∀ {args len u}, Called os1 s1 .retr args len u →
      RetrAnnounces os1 u args len → s1.data.transferModeBinary = s2.data.transferModeBinary)
    (h : Paired b1 b2 s1 s2) : rwp os1 os2 serverHandler serverHandler (fun r t1 t2 =>
      Ends b1 b2 t1 t2 ∧ (r = 0 → Paired b1 b2 t1 t2)) (Ends b1 b2) s1 s2 := by
  unfold serverHandler
  refine rwp_getData.mpr ?_
  rw [← h.isServerSocketCreated, ← h.isConnected]
  refine rwp_ite (fun hcreated => ?_) (fun hcreated => rwp_ite (fun hc => ?_) (fun hc => ?_))
  · exact rwp_serverStart hsame hd hprint1 hprint2 h
  · exact rwp_waitForIncomingConnection hsame hd hc hprint1 hprint2 h
  · have hc' : s1.data.isConnected = true := by simpa using hc
    have hshared : Twins b1 b2
        ⟨true, decide (s1.data.transferModeBinary = s2.data.transferModeBinary), false⟩ s1 s2 :=
      ⟨h.core, fun _ => h.cwd hc', of_decide_eq_true, h.client⟩
    refine rwp_mono (rwp_handleConnection hsame rfl (by simpa using hcreated) hc'
      (fun hcall hann => decide_eq_true (hmode hcall hann)) hshared) ?_ fun _ _ h => h
    exact fun _ _ _ ht => ⟨ht.ends, fun _ => ht.paired fun _ => rfl⟩

end Handlers

/-- **An unaffected turn does**: it is one in which there is nothing in memory. -/
theorem Unaffected.rwp (hun : Unaffected os1 os2 s1 s2) (hsame : SameOutcomes os1 os2 b1 b2)
    (hd : Configured s1.data) (h : Paired b1 b2 s1 s2) :
    Prog.rwp os1 os2 serverHandler serverHandler (fun r t1 t2 =>
      Ends b1 b2 t1 t2 ∧ (r = 0 → Paired b1 b2 t1 t2)) (Ends b1 b2) s1 s2 := by
  have hrun := rwp_serverHandler hsame.holding hd (Or.inr fun _ => rfl) (Or.inr fun _ => rfl)
    (fun hcall hann => ?_) h
  · unfold Prog.rwp at hrun ⊢
    rwa [hun.determined1 .blank, hun.determined2 .blank] at hrun
  · have hcall' := Called.holding.mp hcall
    obtain ⟨⟨r, hr⟩, hsock, haccept, hfit⟩ := hann
    exact hun.mode hcall' ⟨exists_namesFile hun.determined1 hcall' hsock hr, hsock, haccept, hfit⟩

/-! ### Runs -/

/-- A turn that does not stop the server leaves it its socket. -/
theorem Step.serverSock {s s' : St} {r : Int} (h : Step os s r s')
    (hc : s.data.isServerSocketCreated = true) (hc' : s'.data.isServerSocketCreated = true) :
    s'.data.serverSock = s.data.serverSock := by
  have hstops : ∀ {t : St}, Stops t s' → s'.data.serverSock = s.data.serverSock := by
    rintro t ⟨⟩
    exact absurd hc' Bool.false_ne_true
  cases h with
  | starting hno => exact absurd (hno.symm.trans hc) (by decide)
  | waiting _ _ hs =>
    cases hs with
    | idle => rfl
    | stopped _ _ h => exact hstops h
    | homeless _ hd => cases hd <;> rfl
    | ungreeted _ hd => cases hd <;> rfl
    | connected _ hd => cases hd <;> rfl
  | conversing _ _ hs =>
    cases hs with
    | line _ _ hp hh => exact hh.server.2.trans hp.server.2
    | closed _ hd => cases hd; rfl
    | ignored => rfl
    | stopped _ _ _ _ h => exact hstops h

/-- What has happened since `s0`: any number of turns, with the server listening. -/
def History (os : Os) (s0 : St) : St → Prop :=
  Reach (· = s0) fun s s' => s.data.isServerSocketCreated = true ∧ Turn os s s'

/-- The server is disconnected and listens. -/
def Awaits (s : St) : Prop :=
  s.data.isServerSocketCreated = true ∧ s.data.isConnected = false

theorem History.reachable {s0 s : St} (h : History os s0 s) (h0 : Reachable os argv s0) :
    Reachable os argv s := by
  induction h with
  | start h => exact h ▸ h0
  | step _ h ih => exact Reach.step ih h.2

/-- A history changes neither what was initialised nor the socket of the server. -/
theorem History.config {s0 s : St} (h : History os s0 s) (h0 : Reachable os argv s0) :
    s.data.config = s0.data.config ∧
      (s.data.isServerSocketCreated = true → s.data.serverSock = s0.data.serverSock) := by
  induction h with
  | start h => exact h ▸ ⟨rfl, fun _ => rfl⟩
  | step hs h ih =>
    have hsound := (History.reachable hs h0).sound
    have hstep := Step.of_run hsound.configured h.2
    exact ⟨hstep.config.trans ih.1, fun hc => (hstep.serverSock h.1 hc).trans (ih.2 h.1)⟩

/-- Two servers that await a client are paired. -/
theorem paired_of_histories {s0 : St} (h1 : Reachable os1 argv s0) (h2 : Reachable os2 argv s0)
    (hist1 : History os1 s0 b1) (hist2 : History os2 s0 b2) (hawaits1 : Awaits b1)
    (hawaits2 : Awaits b2) : Paired b1 b2 b1 b2 := by
  obtain ⟨hc1, hn1⟩ := hawaits1
  obtain ⟨hc2, hn2⟩ := hawaits2
  obtain ⟨hclient1, htransfer1⟩ := (hist1.reachable h1).sound.waiting hc1 hn1
  obtain ⟨hclient2, htransfer2⟩ := (hist2.reachable h2).sound.waiting hc2 hn2
  obtain ⟨hconfig1, hsock1⟩ := hist1.config h1
  obtain ⟨hconfig2, hsock2⟩ := hist2.config h2
  have hconfig := hconfig1.trans hconfig2.symm
  have hsock := (hsock1 hc1).trans (hsock2 hc2).symm
  simp only [ServerData.config, Prod.mk.injEq] at hconfig
  refine ⟨?_, fun hc => ?_, fun h => absurd h Bool.false_ne_true,
    Or.inr ⟨rfl, rfl, rfl, [], rfl, rfl⟩⟩
  · simp only [ServerData.core, ServerData.mk.injEq]
    simp only [hconfig, hsock, hclient1, hclient2, htransfer1, htransfer2, hn1, hn2, hc1, hc2,
      and_self]
  · exact absurd (hn1.symm.trans hc) (by decide)

/-- Turns of both servers, all unaffected by what earlier clients have left. -/
def Together (os1 os2 : Os) (b1 b2 : St) : St × St → Prop :=
  Reach (· = (b1, b2)) fun p q =>
    Unaffected os1 os2 p.1 p.2 ∧ Turn os1 p.1 q.1 ∧ Turn os2 p.2 q.2

/-- What was written to the client and to its data connection, with the outcomes. -/
def writes (N : List Event) : List Event :=
  N.filter fun
    | .write .. => true
    | _ => false

/-- What continues two logs alike shows the client the same. -/
theorem Continues.writes {l1 l2 : Log} (h : Continues b1 b2 l1 l2) : ∃ N1 N2,
    l1 = N1 ++ b1.log ∧ l2 = N2 ++ b2.log ∧ writes N1 = writes N2 := by
  have hcloses : ∀ {fd : Int} {X : List Event}, Closes fd X → VsFtp.writes X = [] := by
    intro fd X hX
    cases hX <;> rfl
  cases h with
  | same N => exact ⟨N, N, rfl, rfl, rfl⟩
  | @closed N M X1 X2 h1 h2 =>
    refine ⟨N ++ (X1 ++ M), N ++ (X2 ++ M), by simp, by simp, ?_⟩
    have happend : ∀ A B, VsFtp.writes (A ++ B) = VsFtp.writes A ++ VsFtp.writes B :=
      fun A B => List.filter_append A B
    rw [happend, happend, happend, happend, hcloses h1, hcloses h2]

theorem Together.reachable {s1 s2 : St} (h : Together os1 os2 b1 b2 (s1, s2))
    (h1 : Reachable os1 argv b1) : Reachable os1 argv s1 := by
  have hinv := Reach.invariant (I := fun p : St × St => Reachable os1 argv p.1) h
    (fun p hp => by subst hp; exact h1) fun p q _ hp hq => Reach.step hp hq.2.1
  exact hinv

/-- The servers stay paired, by induction on the turns. -/
theorem Together.paired {s1 s2 : St} (hsame : SameOutcomes os1 os2 b1 b2)
    (h : Together os1 os2 b1 b2 (s1, s2)) (h1 : Reachable os1 argv b1)
    (hpaired : Paired b1 b2 b1 b2) : Paired b1 b2 s1 s2 := by
  have hinv := Reach.invariant
    (I := fun p : St × St => Reachable os1 argv p.1 ∧ Paired b1 b2 p.1 p.2) h
    (fun p hp => by subst hp; exact ⟨h1, hpaired⟩) ?_
  · exact hinv.2
  · rintro ⟨p1, p2⟩ ⟨q1, q2⟩ - ⟨hr, hp⟩ ⟨hun, hturn1, hturn2⟩
    have hturn := hun.rwp hsame hr.sound.configured hp
    exact ⟨Reach.step hr hturn1, ((rwp_of_returns hturn1 hturn2).mp hturn).2 rfl⟩

/-- **Sessions are isolated**, as long as their turns do not show the transfer mode or the working
directory that earlier clients have left: after any two histories behind the same start, a client
that is given the same outcomes gets the same, from the turns so far and from the next one,
whether that returns or not. -/
theorem session_isolation {s0 : St} (h1 : Reachable os1 argv s0) (h2 : Reachable os2 argv s0)
    (hist1 : History os1 s0 b1) (hist2 : History os2 s0 b2) (hawaits1 : Awaits b1)
    (hawaits2 : Awaits b2) (hsame : SameOutcomes os1 os2 b1 b2)
    (hrun : Together os1 os2 b1 b2 (s1, s2)) (hun : Unaffected os1 os2 s1 s2) :
    (serverHandler os1 s1).1 = (serverHandler os2 s2).1 ∧ ∃ N1 N2,
      (serverHandler os1 s1).2.log = N1 ++ b1.log ∧ (serverHandler os2 s2).2.log = N2 ++ b2.log ∧
      writes N1 = writes N2 := by
  have hreach := hist1.reachable h1
  have hpaired := hrun.paired hsame hreach
    (paired_of_histories h1 h2 hist1 hist2 hawaits1 hawaits2)
  have hturn := hun.rwp hsame (hrun.reachable hreach).sound.configured hpaired
  rcases rwp_cases hturn with ⟨r, t1, t2, hr1, hr2, hends, -⟩ | ⟨t1, t2, hr1, hr2, hends⟩
  · rw [hr1, hr2]
    exact ⟨rfl, hends.writes⟩
  · rw [hr1, hr2]
    exact ⟨rfl, Continues.writes hends⟩

/-! ### Two hosts -/

/-- A machine with one file, and a client with the given requests. -/
def scripted (reads : List (Option (List Byte))) : Host :=
  { nodes := [Host.srv, Host.node ["srv", "f"] .regular [1, 2, 3] Host.valid_f],
    reads := reads, fileReads := [[1, 2, 3]] }

/-- Two such machines answer alike when they have the same descriptors open and the same is left to
be read. -/
theorem sameAnswers_scripted {reads1 reads2 : List (Option (List Byte))} {l1 l2 : Log}
    (hopen : Host.openNow l1 = Host.openNow l2)
    (hreads : reads1.getD (Host.readCount l1) (some []) = reads2.getD (Host.readCount l2) (some []))
    (hfiles : Host.readFileCount l1 = Host.readFileCount l2)
    (hfstat : (scripted []).os.fstat l1 = (scripted []).os.fstat l2) :
    SameAnswers (scripted reads1).os (scripted reads2).os l1 l2 := by
  have haccept : ∀ fd, (if fd ∈ Host.openNow l1 then unusedFd (Host.openNow l1) else -1)
      = if fd ∈ Host.openNow l2 then unusedFd (Host.openNow l2) else -1 := by
    intro fd
    rw [hopen]
  constructor
  case socket => exact congrArg unusedFd hopen
  case accept => exact funext haccept
  case read => exact funext fun _ => funext fun n => congrArg (·.map (·.take n)) hreads
  case openFile =>
    exact funext fun path => congrArg
      (fun fds => if ((scripted []).find path).isSome then unusedFd fds else -1) hopen
  case fstat => exact hfstat
  case readFile =>
    exact funext fun _ => funext fun n => congrArg
      (fun c => some (((scripted []).fileReads.getD c []).take n)) hfiles
  all_goals rfl

theorem Continues.exists_same {l1 l2 : Log} (h : Continues b1 b2 l1 l2)
    (hb1 : b1.data.transferClientSock = -1) (hb2 : b2.data.transferClientSock = -1) :
    ∃ N, l1 = N ++ b1.log ∧ l2 = N ++ b2.log := by
  cases h with
  | same N => exact ⟨N, rfl, rfl⟩
  | closed N M h1 h2 =>
    rw [hb1] at h1
    rw [hb2] at h2
    have hnil : ∀ {X : List Event}, Closes (-1) X → X = [] := by
      rintro X (- | ⟨hne, -⟩ | hne)
      · rfl
      · exact absurd rfl hne
      · exact absurd rfl hne
    rw [hnil h1, hnil h2]
    exact ⟨N ++ M, by simp, by simp⟩

theorem sameOutcomes_scripted {reads1 reads2 : List (Option (List Byte))}
    (hb1 : b1.data.transferClientSock = -1) (hb2 : b2.data.transferClientSock = -1)
    (hopen : Host.openNow b1.log = Host.openNow b2.log)
    (hreads : reads1.drop (Host.readCount b1.log) = reads2.drop (Host.readCount b2.log))
    (hfiles : Host.readFileCount b1.log = Host.readFileCount b2.log)
    (hfstat : (scripted []).os.fstat b1.log 0 = (scripted []).os.fstat b2.log 0) :
    SameOutcomes (scripted reads1).os (scripted reads2).os b1 b2 := by
  intro l1 l2 h
  obtain ⟨N, rfl, rfl⟩ := h.exists_same hb1 hb2
  have hgetD : ∀ (reads : List (Option (List Byte))) (c k : ℕ),
      reads.getD (k + c) (some []) = (reads.drop c).getD k (some []) := by
    intro reads c k
    simp [List.getD, Nat.add_comm]
  refine sameAnswers_scripted ?_ ?_ ?_ ?_
  · unfold Host.openNow openFds at *
    rw [Ledger.live_append, hopen, ← Ledger.live_append]
  · unfold Host.readCount at *
    rw [List.countP_append, List.countP_append, hgetD, hgetD, hreads]
  · unfold Host.readFileCount at *
    rw [List.countP_append, List.countP_append, hfiles]
  · funext fd
    have happend : ∀ b : Log, (scripted []).os.fstat (N ++ b) fd
        = ((scripted []).os.fstat N fd).or ((scripted []).os.fstat b 0) := fun b =>
      List.findSome?_append
    rw [happend, happend, hfstat]

/-- The server listens at the start of each of `n` turns that return zero. -/
def Host.listens (os : Os) : ℕ → St → Bool
  | 0, _ => true
  | n + 1, s => s.data.isServerSocketCreated && (serverHandler os s).1 = some 0 &&
      Host.listens os n (serverHandler os s).2

theorem Host.history_run {s0 : St} : ∀ {n : ℕ} {s : St}, History os s0 s →
    Host.listens os n s = true → History os s0 (Host.run os n s) := by
  intro n
  induction n with
  | zero => exact fun h _ => h
  | succ n ih =>
    intro s h hn
    simp only [Host.listens, Bool.and_eq_true, decide_eq_true_eq] at hn
    exact ih (.step h ⟨hn.1.1, Prod.ext hn.1.2 rfl⟩) hn.2

/-- Turns of both servers, whether they are affected or not. -/
def SideBySide (os1 os2 : Os) (b1 b2 : St) : St × St → Prop :=
  Reach (· = (b1, b2)) fun p q => Turn os1 p.1 q.1 ∧ Turn os2 p.2 q.2

theorem Host.sideBySide_run : ∀ {n : ℕ} {s1 s2 : St}, SideBySide os1 os2 b1 b2 (s1, s2) →
    Host.goesOn os1 n s1 = true → Host.goesOn os2 n s2 = true →
    SideBySide os1 os2 b1 b2 (Host.run os1 n s1, Host.run os2 n s2) := by
  intro n
  induction n with
  | zero => exact fun h _ _ => h
  | succ n ih =>
    intro s1 s2 h hn1 hn2
    simp only [Host.goesOn, Bool.and_eq_true, decide_eq_true_eq] at hn1 hn2
    exact ih (.step h ⟨Prod.ext hn1.1 rfl, Prod.ext hn2.1 rfl⟩) hn1.2 hn2.2

/-- Turns of both servers that are not affected. -/
theorem Host.together_run : ∀ {n : ℕ} {s1 s2 : St}, Together os1 os2 b1 b2 (s1, s2) →
    Host.goesOn os1 n s1 = true → Host.goesOn os2 n s2 = true →
    (∀ k < n, Unaffected os1 os2 (Host.run os1 k s1) (Host.run os2 k s2)) →
    Together os1 os2 b1 b2 (Host.run os1 n s1, Host.run os2 n s2) := by
  intro n
  induction n with
  | zero => exact fun h _ _ _ => h
  | succ n ih =>
    intro s1 s2 h hn1 hn2 hun
    simp only [Host.goesOn, Bool.and_eq_true, decide_eq_true_eq] at hn1 hn2
    refine ih (.step h ⟨hun 0 (Nat.succ_pos n), Prod.ext hn1.1 rfl, Prod.ext hn2.1 rfl⟩) hn1.2 hn2.2
      fun k hk => hun (k + 1) (Nat.succ_lt_succ hk)

/-- A client that asks for the file `f`. -/
def fetching : List (Option (List Byte)) :=
  [some (ascii "PASV" ++ crlf), some (ascii "RETR f" ++ crlf)]

/-- A client that sets the mode before. -/
def setting : List (Option (List Byte)) := some (ascii "TYPE I" ++ crlf) :: fetching

/-- The machine on which an earlier client has set the ASCII mode. -/
def asciiHost (reads : List (Option (List Byte))) : Host :=
  scripted (some (ascii "TYPE A" ++ crlf) :: some [] :: reads)

/-- The machine on which an earlier client has done nothing. -/
def idleHost (reads : List (Option (List Byte))) : Host := scripted (some [] :: reads)

/-- The state in which the servers on both machines have been started. -/
def commonStart : St := Host.run Host.plain.os 1 (Host.start Host.plain.os Host.argv)

/-- What the earlier client has left on the first machine. -/
def asciiLeft : St := Host.run (asciiHost []).os 3 commonStart

/-- What the earlier client has left on the second machine. -/
def idleLeft : St := Host.run (idleHost []).os 2 commonStart

theorem asciiLeft_history {reads : List (Option (List Byte))} (h : reads ∈ [fetching, setting]) :
    Reachable (asciiHost reads).os Host.argv commonStart ∧
      History (asciiHost reads).os commonStart asciiLeft ∧ Awaits asciiLeft := by
  have hstart : ∀ reads ∈ [fetching, setting], commonStart
      = Host.run (asciiHost reads).os 1 (Host.start (asciiHost reads).os Host.argv) ∧
      Host.lasts (asciiHost reads).os Host.argv 1 = true := by decide +kernel
  have hleft : ∀ reads ∈ [fetching, setting],
      asciiLeft = Host.run (asciiHost reads).os 3 commonStart ∧
        Host.listens (asciiHost reads).os 3 commonStart = true := by decide +kernel
  refine ⟨?_, ?_, by decide +kernel, by decide +kernel⟩
  · rw [(hstart _ h).1]
    exact Host.reachable_run (hstart _ h).2
  · rw [(hleft _ h).1]
    exact Host.history_run (.start rfl) (hleft _ h).2

theorem idleLeft_history {reads : List (Option (List Byte))} (h : reads ∈ [fetching, setting]) :
    Reachable (idleHost reads).os Host.argv commonStart ∧
      History (idleHost reads).os commonStart idleLeft ∧ Awaits idleLeft := by
  have hstart : ∀ reads ∈ [fetching, setting], commonStart
      = Host.run (idleHost reads).os 1 (Host.start (idleHost reads).os Host.argv) ∧
      Host.lasts (idleHost reads).os Host.argv 1 = true := by decide +kernel
  have hleft : ∀ reads ∈ [fetching, setting],
      idleLeft = Host.run (idleHost reads).os 2 commonStart ∧
        Host.listens (idleHost reads).os 2 commonStart = true := by decide +kernel
  refine ⟨?_, ?_, by decide +kernel, by decide +kernel⟩
  · rw [(hstart _ h).1]
    exact Host.reachable_run (hstart _ h).2
  · rw [(hleft _ h).1]
    exact Host.history_run (.start rfl) (hleft _ h).2

theorem sameOutcomes_left {reads : List (Option (List Byte))} (h : reads ∈ [fetching, setting]) :
    SameOutcomes (asciiHost reads).os (idleHost reads).os asciiLeft idleLeft := by
  refine sameOutcomes_scripted (by decide +kernel) (by decide +kernel) (by decide +kernel) ?_
    (by decide +kernel) (by decide +kernel)
  revert h
  revert reads
  decide +kernel

/-- The client that sets the mode is served alike by both: it is given the file. -/
theorem session_isolation_setting :
    let os1 := (asciiHost setting).os
    let os2 := (idleHost setting).os
    let s1 := Host.run os1 3 asciiLeft
    let s2 := Host.run os2 3 idleLeft
    (serverHandler os1 s1).1 = (serverHandler os2 s2).1 ∧
      (∃ N1 N2, (serverHandler os1 s1).2.log = N1 ++ asciiLeft.log ∧
        (serverHandler os2 s2).2.log = N2 ++ idleLeft.log ∧ writes N1 = writes N2) ∧
      .write .transferClient 6 [1, 2, 3] 3 ∈ (serverHandler os1 s1).2.log := by
  have hmem : setting ∈ [fetching, setting] := by decide
  obtain ⟨hr1, hist1, hawaits1⟩ := asciiLeft_history hmem
  obtain ⟨hr2, hist2, hawaits2⟩ := idleLeft_history hmem
  -- no turn depends on memory
  have hdet1 : ∀ n < 4, serverHandler ((asciiHost setting).os.holding (Host.worst
      (asciiHost setting).os serverHandler (Host.run (asciiHost setting).os n asciiLeft)))
      (Host.run (asciiHost setting).os n asciiLeft) = serverHandler (asciiHost setting).os
      (Host.run (asciiHost setting).os n asciiLeft) := by decide +kernel
  have hdet2 : ∀ n < 4, serverHandler ((idleHost setting).os.holding (Host.worst
      (idleHost setting).os serverHandler (Host.run (idleHost setting).os n idleLeft)))
      (Host.run (idleHost setting).os n idleLeft) = serverHandler (idleHost setting).os
      (Host.run (idleHost setting).os n idleLeft) := by decide +kernel
  -- and when the file is asked for, the modes are the same
  have hmode : ∀ n < 4, (calling (asciiHost setting).os
      (Host.run (asciiHost setting).os n asciiLeft)).map (·.1) = some .retr →
      (Host.run (asciiHost setting).os n asciiLeft).data.transferModeBinary
        = (Host.run (idleHost setting).os n idleLeft).data.transferModeBinary := by decide +kernel
  have hun : ∀ n < 4, Unaffected (asciiHost setting).os (idleHost setting).os
      (Host.run (asciiHost setting).os n asciiLeft) (Host.run (idleHost setting).os n idleLeft) :=
    fun n hn => ⟨Host.determined_of_worst (hdet1 n hn), Host.determined_of_worst (hdet2 n hn),
      fun hcall _ => hmode n hn (by rw [hcall.calling_eq]; rfl)⟩
  have hrun := Host.together_run (.start rfl) (by decide +kernel) (by decide +kernel)
    fun k hk => hun k (show k < 4 from Nat.lt_succ_of_lt hk)
  have h := session_isolation hr1 hr2 hist1 hist2 hawaits1 hawaits2 (sameOutcomes_left hmem) hrun
    (hun 3 (by decide))
  exact ⟨h.1, h.2, by decide +kernel⟩

/-- What the records behind `old` are. -/
def recordsSince (old log : Log) : List Event := log.take (log.length - old.length)

/-- **The mode that an earlier client has set shows in the reply to a later one.** -/
theorem mode_left_behind : ∃ os1 os2 s0 b1 b2 s1 s2 N1 N2, Reachable os1 Host.argv s0 ∧
    Reachable os2 Host.argv s0 ∧ History os1 s0 b1 ∧ History os2 s0 b2 ∧ Awaits b1 ∧ Awaits b2 ∧
    SameOutcomes os1 os2 b1 b2 ∧ SideBySide os1 os2 b1 b2 (s1, s2) ∧
    s1.log = N1 ++ b1.log ∧ s2.log = N2 ++ b2.log ∧ writes N1 ≠ writes N2 := by
  have hmem : fetching ∈ [fetching, setting] := by decide
  obtain ⟨hr1, hist1, hawaits1⟩ := asciiLeft_history hmem
  obtain ⟨hr2, hist2, hawaits2⟩ := idleLeft_history hmem
  refine ⟨(asciiHost fetching).os, (idleHost fetching).os, commonStart, asciiLeft, idleLeft,
    Host.run (asciiHost fetching).os 3 asciiLeft, Host.run (idleHost fetching).os 3 idleLeft,
    recordsSince asciiLeft.log (Host.run (asciiHost fetching).os 3 asciiLeft).log,
    recordsSince idleLeft.log (Host.run (idleHost fetching).os 3 idleLeft).log,
    hr1, hr2, hist1, hist2, hawaits1, hawaits2, sameOutcomes_left hmem,
    Host.sideBySide_run (.start rfl) (by decide +kernel) (by decide +kernel), ?_, ?_, ?_⟩
  · decide +kernel
  · decide +kernel
  · decide +kernel

end VsFtp
