import VsFtp.Printing
import VsFtp.Requests

/-!
# The size of a file and its transfer

`SIZE` and `RETR` find their file in the same way.  `SIZE` then answers with the size from `stat`,
and `RETR` announces the transfer in a reply with the argument in it, opens the file and sends it.
When the calls succeed they agree, unless the announcement is too long.

## Main definitions

* `ReportsSize`, `SendsFile` — `SIZE` answers with a number, and `RETR` with a 226 after that many
  bytes.
* `Steady` — a file system that does not change, in which files can be read.
* `CompletesRetr` — the reads and writes of `RETR` complete in full.

## Main results

* `Copies.complete` — a transfer whose calls complete sends the whole file.
* `size_retr_agree_iff` — **`SIZE` and `RETR` agree if and only if the announcement of a file that
  is found fits its buffer.**
* `long_name_refused` — a file of which `SIZE` knows the size, and `RETR` sends nothing.
-/

namespace VsFtp

open CString Prog

attribute [local irreducible] serverSendReply

variable {os : Os} {s : St} {E : St → Prop} {args : List Byte} {len : ℕ}

/-! ### What the client is told and sent -/

/-- `SIZE` answers that the file has `n` bytes. -/
def ReportsSize (os : Os) (s : St) (args : List Byte) (len n : ℕ) : Prop :=
  wp os (commandHandle .size args len) (fun _ s' => ∃ N w, s'.log =
    .write .client s.data.clientSock (ascii "213 " ++ decimal n ++ crlf) w :: (N ++ s.log))
    (fun _ => False) s

/-- How many bytes a record shows to have been sent on the data connection. -/
def Event.sent : Event → ℕ
  | .write .transferClient _ _ w => w.toNat
  | _ => 0

/-- How many bytes were sent on the data connection. -/
def dataSent (N : List Event) : ℕ := (N.map Event.sent).sum

theorem dataSent_append {N M : List Event} : dataSent (N ++ M) = dataSent N + dataSent M := by
  simp [dataSent]

theorem dataSent_of_kind {ks : List Kind} {N : List Event} (h : OfKind ks N) (hw : .write ∉ ks) :
    dataSent N = 0 := by
  induction N with
  | nil => rfl
  | cons e N ih =>
    have hkind := h e (by simp)
    have hsent : e.sent = 0 := by
      cases e <;> first | rfl | exact absurd hkind hw
    have hN := ih fun e he => h e (by simp [he])
    simpa [dataSent, hsent] using hN

/-- `RETR` sends `n` bytes on the data connection and answers with a 226. -/
def SendsFile (os : Os) (s : St) (args : List Byte) (len n : ℕ) : Prop :=
  wp os (commandHandle .retr args len) (fun _ s' => ∃ N w, s'.log =
    .write .client s.data.clientSock (ascii "226 Transfer Complete." ++ crlf) w :: (N ++ s.log) ∧
    dataSent N = n) (fun _ => False) s

/-- The argument resolves to a regular file, and the process survives printing the working
directory if that is needed for it. -/
def FindsFile (os : Os) (s : St) (args : List Byte) (len : ℕ) : Prop :=
  (∃ r, NamesFile os s args len r) ∧ (IsRelative os s args → ¬ PrintKills os s)

/-! ### What is assumed -/

/-- From `s` on the file system does not change: what a path resolves to exists with the same
`stat` at every moment, and if it is a regular file it can be read, and its descriptor has the same
`stat`. -/
def Steady (os : Os) (s : St) : Prop :=
  ∀ p r, os.realpath s.log p = some r → ∃ st, ∀ N : List Event, os.stat (N ++ s.log) r = some st ∧
    (st.kind = .regular → os.access (N ++ s.log) r = 0 ∧ os.openFile (N ++ s.log) r ≠ -1 ∧
      os.fstat (.openFile r (os.openFile (N ++ s.log) r) :: (N ++ s.log))
        (os.openFile (N ++ s.log) r) = some st)

/-- A data connection is waiting to be accepted, while the server looks up paths. -/
def DataWaiting (os : Os) (s : St) : Prop :=
  s.data.transferSock ≠ -1 ∧
    ∀ L : List Event, Lookups L → 0 ≤ os.accept (L ++ s.log) s.data.transferSock

/-- A read or write has completed in full. -/
def Event.complete : Event → Bool
  | .write _ _ bytes w => decide (w = bytes.length)
  | .readFile _ n r => r.any fun bytes => decide (bytes.length = n ∧ bytes ≠ [])
  | _ => true

/-- The reads and writes of `RETR` complete in full. -/
def CompletesRetr (os : Os) (s : St) (args : List Byte) (len : ℕ) : Prop :=
  wp os (commandHandle .retr args len) (fun _ s' => ∀ N, s'.log = N ++ s.log →
    ∀ e ∈ N, e.complete = true) (fun _ => True) s

/-! ### The transfer -/

/-- **A transfer whose calls complete sends the whole file**, by induction on its rounds. -/
theorem Copies.complete {x fd : Int} {count : ℕ} {retval : Int} {D : List Event}
    (h : Copies x fd count retval D) (hD : ∀ e ∈ D, e.complete = true) :
    retval = 0 ∧ dataSent D = count := by
  induction h with
  | done => exact ⟨rfl, rfl⟩
  | unread => exact absurd (hD _ List.mem_cons_self) (by simp [Event.complete])
  | ended => exact absurd (hD _ List.mem_cons_self) (by simp [Event.complete])
  | @refused count n bytes w _ hb hw =>
    have hwrite := hD _ List.mem_cons_self
    simp only [Event.complete, decide_eq_true_eq] at hwrite
    have hpos := List.length_pos_of_ne_nil hb
    omega
  | @accepted count n k bytes retval D _ hkb hb _ ih =>
    obtain ⟨hretval, hsent⟩ := ih fun e he => hD e (List.mem_append_left _ he)
    have hwrite := hD (.write .transferClient x bytes k) (by simp)
    simp only [Event.complete, decide_eq_true_eq] at hwrite
    refine ⟨hretval, ?_⟩
    rw [dataSent_append, hsent]
    simp only [dataSent, Event.sent, List.map_cons, List.map_nil, List.sum_cons, List.sum_nil,
      Int.toNat_natCast]
    omega

/-- Sending a file that can be read. -/
theorem wp_serverSendfileTransfer_found {path : List Byte} {plen : ℕ} {st : Stat}
    (hlen : 0 < plen) (haccess : os.access s.log path = 0)
    (hopen : os.openFile (.access path 0 :: s.log) path ≠ -1)
    (hstat : os.fstat (.openFile path (os.openFile (.access path 0 :: s.log) path) ::
      .access path 0 :: s.log) (os.openFile (.access path 0 :: s.log) path) = some st) :
    wp os (serverSendfileTransfer path plen) (fun retval s' => ∃ fd q D,
      Copies s.data.transferClientSock fd st.size retval D ∧ s' = ⟨s.data, .closeFile fd q ::
        (D ++ .fstat fd (some st) :: .openFile path fd :: .access path 0 :: s.log)⟩) E s := by
  unfold serverSendfileTransfer filesystemOpenFile filesystemCloseFile
  rw [if_pos hlen]
  refine (wp_bind _ _).mpr ((wp_bind _ _).mpr ((wp_call _ _).mpr ?_))
  rw [haccess, if_pos rfl]
  refine (wp_bind _ _).mpr ((wp_call _ _).mpr ?_)
  rw [if_neg hopen]
  refine (wp_bind _ _).mpr ((wp_call _ _).mpr ?_)
  rw [hstat]
  refine (wp_pure _).mpr ((wp_bind _ _).mpr ?_)
  refine wp_mono (wp_sendfileLoop le_rfl st.size_lt) ?_ fun _ h => h
  rintro retval _ ⟨D, hD, rfl⟩
  exact ⟨_, _, D, hD, rfl⟩

/-! ### Finding the file -/

/-- An argument that names a file is not empty, and if it is relative there is a working
directory. -/
theorem NamesFile.spec {r : List Byte} (h : NamesFile os s args len r) : 0 < len ∧
    (IsRelative os s args → 0 < s.data.cwdLen ∧ s.data.cwdLen < pathLenMax) := by
  obtain ⟨p, hp, -⟩ := h
  unfold argTarget serverTarget at hp
  by_cases hlen : 0 < len
  · rw [if_pos hlen] at hp
    refine ⟨hlen, fun hrel => ?_⟩
    rw [if_neg hrel] at hp
    by_contra hcwd
    rw [if_neg fun hfits => hcwd hfits.1] at hp
    simp at hp
  · simp [if_neg hlen] at hp

/-- A file that is found. -/
theorem FindsFile.exists_run (h : FindsFile os s args len) :
    ∃ out s1, filePath args len os s = (some out, s1) ∧ out.1.retval = 0 := by
  obtain ⟨⟨r, hr⟩, hsurvives⟩ := h
  refine exists_run_of_wp (wp_mono (wp_filePath fun hrel hk => hsurvives hrel.2 hk) ?_ fun _ h => h)
  rintro out s1 ⟨L, hpath, rfl⟩
  cases hpath with
  | unfound _ _ hno => exact absurd hr (hno r)
  | found => rfl

/-- The file that was found, from the run that found it. -/
theorem exists_of_filePath {out : PathOut × Bool} {s1 : St}
    (hrun : filePath args len os s = (some out, s1)) (h0 : out.1.retval = 0) :
    ∃ r L, NamesFile os s args len r ∧ Lookups L ∧ out = (⟨0, r, r.length⟩, false) ∧
      s1 = ⟨s.data, L ++ s.log⟩ := by
  obtain ⟨L, hpath, rfl⟩ := of_wp_run (wp_filePath fun _ => PrintKills.killed) hrun
  have hL := hpath.lookups
  cases hpath with
  | unfound h => exact absurd h0 h
  | found h => exact ⟨_, _, h, hL, rfl, rfl⟩

theorem FindsFile.of_run {out : PathOut × Bool} {s1 : St}
    (hrun : filePath args len os s = (some out, s1)) (h0 : out.1.retval = 0) :
    FindsFile os s args len := by
  obtain ⟨r, L, hr, -⟩ := exists_of_filePath hrun h0
  obtain ⟨hlen, hcwd⟩ := hr.spec
  refine ⟨⟨r, hr⟩, fun hrel hk => ?_⟩
  exact (filePath_dies hk (hcwd hrel) hlen hrel).run_ne _ _ hrun

/-- The file of a steady file system that was found. -/
theorem Steady.exists_file (h : Steady os s) {out : PathOut × Bool} {s1 : St}
    (hrun : filePath args len os s = (some out, s1)) (h0 : out.1.retval = 0) :
    ∃ r st L, 0 < r.length ∧ (∀ N : List Event, os.stat (N ++ s.log) r = some st ∧
        os.access (N ++ s.log) r = 0 ∧ os.openFile (N ++ s.log) r ≠ -1 ∧
        os.fstat (.openFile r (os.openFile (N ++ s.log) r) :: (N ++ s.log))
          (os.openFile (N ++ s.log) r) = some st) ∧
      Lookups L ∧ out = (⟨0, r, r.length⟩, false) ∧ s1 = ⟨s.data, L ++ s.log⟩ := by
  obtain ⟨r, L, hr, hL, rfl, rfl⟩ := exists_of_filePath hrun h0
  have hc := hr.canonical
  obtain ⟨p, -, ha, -, hkind⟩ := hr
  obtain ⟨st, hst⟩ := h p r ha
  have hregular : st.kind = .regular := by
    have hstat := (hst [.realpath p (some r)]).1
    rw [List.cons_append, List.nil_append] at hstat
    simpa [reportedKind, hstat] using hkind
  exact ⟨r, st, L, hc.length_pos, fun N => ⟨(hst N).1, (hst N).2 hregular⟩, hL, rfl, rfl⟩

/-! ### `SIZE` -/

/-- `SIZE` of a file that is found reports its size. -/
theorem reportsSize_iff_of_found {r : List Byte} {st : Stat} {L : List Event} {n : ℕ}
    (hrun : filePath args len os s = (some (⟨0, r, r.length⟩, false), ⟨s.data, L ++ s.log⟩))
    (hst : os.stat (L ++ s.log) r = some st) : ReportsSize os s args len n ↔ n = st.size := by
  have hdigits := decimal_length_le st.size_lt
  have hascii : (ascii "213 ").length = 4 := by decide
  -- the reply fits its buffer, however many digits the size has
  have hfit : (ascii "213 " ++ decimal st.size).length + 2 < responseLenMax := by
    rw [List.length_append, hascii]
    exact Nat.lt_of_le_of_lt (Nat.add_le_add_right (Nat.add_le_add_left hdigits 4) 2) (by decide)
  unfold ReportsSize commandHandle commandHandlerSize sysStat
  rw [wp_bind, wp_of_run hrun]
  simp only [if_true]
  rw [wp_bind, wp_call, hst]
  obtain ⟨_, _, hsend, w, rfl, rfl⟩ := exists_run_of_wp
    (@wp_serverSendReply os ⟨s.data, .stat r (some st) :: (L ++ s.log)⟩ (fun _ => False) _ hfit)
  rw [wp_of_run hsend]
  constructor
  · rintro ⟨N, w', hlog⟩
    obtain ⟨-, -, htext, -⟩ := Event.write.inj (List.cons.inj hlog).1
    exact decimal_injective (List.append_cancel_left (List.append_cancel_right htext)).symm
  · rintro rfl
    exact ⟨.stat r (some st) :: L, w, rfl⟩

/-- A reply is not that of a success, if it does not start with its code. -/
def Unlike (code : List Byte) (s' : St) : Prop :=
  ∀ fd text w log, s'.log = .write .client fd text w :: log → ¬ code <+: text

theorem wp_serverSendReply_unlike {code text : List Byte} (hfit : text.length + 2 < responseLenMax)
    (hno : ¬ code <+: text ++ crlf) :
    wp os (serverSendReply text) (fun _ => Unlike code) E s := by
  refine wp_mono (wp_serverSendReply hfit) ?_ fun _ h => h
  rintro _ _ ⟨w, rfl, rfl⟩ fd text' w' log hlog hpre
  obtain ⟨-, -, rfl, -⟩ := Event.write.inj (List.cons.inj hlog).1
  exact hno hpre

/-- Without a file `SIZE` reports no size. -/
theorem not_reportsSize {n : ℕ} (h : ¬ FindsFile os s args len) :
    ¬ ReportsSize os s args len n := by
  have hreply : ∀ b : Bool, (if b then ascii "550 File not found." else localError).length + 2
        < responseLenMax ∧ ¬ ascii "213 " <+:
          (if b then ascii "550 File not found." else localError) ++ crlf := by decide
  have hwp : wp os (commandHandlerSize args len) (fun _ => Unlike (ascii "213 "))
      (fun _ => True) s := by
    unfold commandHandlerSize
    refine wp_seq (wp_mono (wp_self _) (fun _ _ h => h) fun _ _ => trivial) fun out s1 hrun => ?_
    have hne : out.1.retval ≠ 0 := fun h0 => h (.of_run hrun h0)
    simp only [if_neg hne]
    exact wp_serverSendReply_unlike (hreply out.2).1 (hreply out.2).2
  refine not_wp_of_wp hwp ?_
  rintro _ s' hunlike ⟨N, w, hlog⟩
  refine hunlike _ _ _ _ hlog ?_
  rw [List.append_assoc]
  exact List.prefix_append _ _

/-! ### `RETR` -/

/-- The reply of `RETR` at the end. -/
def retrEnd (retval : Int) (isFileError : Bool) : List Byte :=
  if retval = 0 then ascii "226 Transfer Complete."
  else if isFileError then ascii "551 File not found." else localError

theorem wp_transferEnd {retval : Int} {isFileError : Bool} :
    wp os (do
      let _ ← serverCloseTransferClientSocket
      let _ ← serverCloseTransferSocket
      if retval = 0 then serverSendReply (ascii "226 Transfer Complete.")
      else serverSendReply (if isFileError then ascii "551 File not found." else localError))
      (fun _ s' => ∃ M w, OfKind [.close] M ∧ s'.log = .write .client s.data.clientSock
        (retrEnd retval isFileError ++ crlf) w :: (M ++ s.log)) E s := by
  have hfit : ∀ b : Bool, (if b then ascii "551 File not found." else localError).length + 2
      < responseLenMax := by decide
  refine wp_closeTransfers fun X Y hX hY => ?_
  have hM : OfKind [.close] (Y ++ X) := fun e he =>
    (List.mem_append.mp he).elim (hY.ofKind e) (hX.ofKind e)
  refine wp_ite (fun h0 => wp_mono (wp_serverSendReply (by decide)) ?_ fun _ h => h)
    (fun hne => wp_mono (wp_serverSendReply (hfit isFileError)) ?_ fun _ h => h)
  · rintro _ _ ⟨w, rfl, rfl⟩
    refine ⟨Y ++ X, w, hM, ?_⟩
    rw [retrEnd, if_pos h0, List.append_assoc]
    rfl
  · rintro _ _ ⟨w, rfl, rfl⟩
    refine ⟨Y ++ X, w, hM, ?_⟩
    rw [retrEnd, if_neg hne, List.append_assoc]
    rfl

/-- Without a file `RETR` does not answer with a 226. -/
theorem not_sendsFile {n : ℕ} (h : ¬ FindsFile os s args len) : ¬ SendsFile os s args len n := by
  have hreply : ∀ b : Bool, ¬ ascii "226" <+:
      (if b then ascii "551 File not found." else localError) ++ crlf := by decide
  have hwp : wp os (commandHandlerRetr args len) (fun _ => Unlike (ascii "226"))
      (fun _ => True) s := by
    rw [commandHandlerRetr_eq]
    refine wp_seq (wp_mono (wp_self _) (fun _ _ h => h) fun _ _ => trivial) fun out s1 hrun => ?_
    have hne : out.1.retval ≠ 0 := fun h0 => h (.of_run hrun h0)
    unfold transferCommand
    simp only [onOk_of_ne hne, pure_bind]
    refine wp_mono wp_transferEnd ?_ fun _ h => h
    rintro _ s' ⟨M, w, -, hlog⟩ fd text w' log hlog' hpre
    obtain ⟨-, -, rfl, -⟩ := Event.write.inj (List.cons.inj (hlog.symm.trans hlog')).1
    rw [retrEnd, if_neg hne] at hpre
    exact hreply out.2 hpre
  refine not_wp_of_wp hwp ?_
  rintro _ s' hunlike ⟨N, w, hlog, -⟩
  exact hunlike _ _ _ _ hlog (by decide)

/-- A reply was sent, unless its record is not complete. -/
theorem status_of_complete {fd w : Int} {text : List Byte}
    (h : (Event.write .client fd text w).complete = true) : status w = 0 := by
  simp only [Event.complete, decide_eq_true_eq] at h
  exact if_neg (by omega)

/-- The announcement fits its buffer. -/
def Announceable (d : ServerData) (args : List Byte) : Prop :=
  (retrReply d.transferModeBinary (cstr args)).length + 2 < responseLenMax

instance (d : ServerData) (args : List Byte) : Decidable (Announceable d args) :=
  inferInstanceAs (Decidable (_ < _))

/-- The announcement of a transfer. -/
def retrAnnounce (args : List Byte) : ServerM Int := do
  let (_, isBinary) ← serverGetTransferMode
  let path ← readString args
  serverSendReply (retrReply isBinary path)

theorem wp_retrAnnounce (hargs : (0 : Byte) ∈ args) :
    wp os (retrAnnounce args) (fun r s' => if Announceable s.data args then
        ∃ w, r = status w ∧ s' = ⟨s.data, .write .client s.data.clientSock
          (retrReply s.data.transferModeBinary (cstr args) ++ crlf) w :: s.log⟩
      else r = -1 ∧ s' = s) E s := by
  have hstring : cstr (args ++ os.behind s.log) = cstr args := by
    obtain ⟨a, b, rfl⟩ := List.append_of_mem hargs
    rw [List.append_assoc, List.cons_append, cstr_append_zero, cstr_append_zero]
  unfold retrAnnounce
  refine (wp_bind _ _).mpr ((wp_bind _ _).mpr (wp_getData.mpr ((wp_pure _).mpr ?_)))
  refine (wp_bind _ _).mpr ?_
  change wp os (serverSendReply (retrReply s.data.transferModeBinary
    (cstr (args ++ os.behind s.log)))) _ E s
  rw [hstring]
  by_cases hfit : Announceable s.data args
  · simp only [if_pos hfit]
    exact wp_serverSendReply hfit
  · simp only [if_neg hfit]
    exact wp_serverSendReply_long (Nat.not_lt.mp hfit)

/-- What is sent when the calls complete. -/
def SendsAll (st : Stat) (s s' : St) (args : List Byte) : Prop :=
  ∃ N retval w, s'.log = .write .client s.data.clientSock (retrEnd retval false ++ crlf) w ::
    (N ++ s.log) ∧ ((∀ e ∈ N, e.complete = true) →
      (retval = 0 ↔ Announceable s.data args) ∧ (retval = 0 → dataSent N = st.size))

/-- Announcing and sending a file that can be read, with the transfer client connected. -/
theorem wp_retrTransfer {r : List Byte} {st : Stat} (hr : 0 < r.length) (hargs : (0 : Byte) ∈ args)
    (hfile : ∀ N : List Event, os.access (N ++ s.log) r = 0 ∧ os.openFile (N ++ s.log) r ≠ -1 ∧
      os.fstat (.openFile r (os.openFile (N ++ s.log) r) :: (N ++ s.log))
        (os.openFile (N ++ s.log) r) = some st) :
    wp os (do
      let retval ← retrAnnounce args
      let retval ← onOk retval (serverSendfileTransfer r r.length)
      let _ ← serverCloseTransferClientSocket
      let _ ← serverCloseTransferSocket
      if retval = 0 then serverSendReply (ascii "226 Transfer Complete.")
      else serverSendReply (if false then ascii "551 File not found." else localError))
      (fun _ s' => SendsAll st s s' args) E s := by
  refine wp_seq (wp_retrAnnounce hargs) ?_
  intro retval s1 hann
  by_cases hfit : Announceable s.data args
  · rw [if_pos hfit] at hann
    obtain ⟨w, rfl, rfl⟩ := hann
    by_cases hw : status w = 0
    · rw [hw, onOk_zero]
      -- the announcement was sent, and the file is opened behind it
      obtain ⟨haccess, -⟩ := hfile [.write .client s.data.clientSock
        (retrReply s.data.transferModeBinary (cstr args) ++ crlf) w]
      obtain ⟨-, hopen, hstat⟩ := hfile [.access r 0, .write .client s.data.clientSock
        (retrReply s.data.transferModeBinary (cstr args) ++ crlf) w]
      refine wp_seq (wp_serverSendfileTransfer_found hr haccess hopen hstat) ?_
      rintro retval _ ⟨fd, q, D, hD, rfl⟩
      refine wp_mono wp_transferEnd ?_ fun _ h => h
      rintro _ s' ⟨M, w', hM, hlog⟩
      refine ⟨M ++ .closeFile fd q :: (D ++ [.fstat fd (some st), .openFile r fd, .access r 0,
        .write .client s.data.clientSock
          (retrReply s.data.transferModeBinary (cstr args) ++ crlf) w]),
        retval, w', by rw [hlog]; simp, fun hN => ?_⟩
      obtain ⟨hretval, hsent⟩ := hD.complete fun e he => hN e (by simp [he])
      refine ⟨iff_of_true hretval hfit, fun _ => ?_⟩
      rw [dataSent_append, dataSent_of_kind hM (by decide), ← hsent]
      simp [dataSent, Event.sent]
    · -- the announcement was not sent
      rw [onOk_of_ne hw]
      refine (wp_bind _ _).mpr ((wp_pure _).mpr (wp_mono wp_transferEnd ?_ fun _ h => h))
      rintro _ s' ⟨M, w', hM, hlog⟩
      refine ⟨M ++ [.write .client s.data.clientSock
        (retrReply s.data.transferModeBinary (cstr args) ++ crlf) w], status w, w',
        by rw [hlog]; simp, fun hN => ?_⟩
      have hsent := hN (.write .client s.data.clientSock
        (retrReply s.data.transferModeBinary (cstr args) ++ crlf) w) (by simp)
      exact absurd (status_of_complete hsent) hw
  · -- the announcement does not fit, and the file is not opened
    rw [if_neg hfit] at hann
    obtain ⟨rfl, rfl⟩ := hann
    rw [onOk_of_ne (by decide)]
    refine (wp_bind _ _).mpr ((wp_pure _).mpr (wp_mono wp_transferEnd ?_ fun _ h => h))
    rintro _ s' ⟨M, w', hM, hlog⟩
    exact ⟨M, -1, w', hlog, fun _ => ⟨iff_of_false (by decide) hfit, fun h => absurd h (by decide)⟩⟩

/-- **`RETR` of a file that is found**, with a data connection waiting. -/
theorem wp_commandHandlerRetr_found {r : List Byte} {st : Stat} {L : List Event}
    (hrun : filePath args len os s = (some (⟨0, r, r.length⟩, false), ⟨s.data, L ++ s.log⟩))
    (hL : Lookups L) (hr : 0 < r.length) (hargs : (0 : Byte) ∈ args) (hwait : DataWaiting os s)
    (hfile : ∀ N : List Event, os.access (N ++ s.log) r = 0 ∧ os.openFile (N ++ s.log) r ≠ -1 ∧
      os.fstat (.openFile r (os.openFile (N ++ s.log) r) :: (N ++ s.log))
        (os.openFile (N ++ s.log) r) = some st) :
    wp os (commandHandlerRetr args len) (fun _ s' => SendsAll st s s' args) E s := by
  rw [commandHandlerRetr_eq, wp_bind, wp_of_run hrun]
  unfold transferCommand
  rw [onOk_zero]
  refine wp_seq wp_serverAcceptTransferClientConnection ?_
  rintro retval _ ⟨x, A, hA, rfl⟩
  cases hA with
  | absent ht => exact absurd ht hwait.1
  | refused _ ha => exact absurd (hwait.2 L hL) (Int.not_le.mpr ha)
  | accepted =>
    rw [onOk_zero]
    -- the file is the same behind the `accept`
    have hfile' : ∀ N : List Event, _ := fun N =>
      hfile (N ++ .accept .transferClient s.data.transferSock
        (os.accept (L ++ s.log) s.data.transferSock) :: L)
    simp only [List.append_assoc, List.cons_append] at hfile'
    refine wp_mono (wp_retrTransfer hr hargs hfile') ?_ fun _ h => h
    rintro _ s' ⟨N, retval, w, hlog, hN⟩
    refine ⟨N ++ .accept .transferClient s.data.transferSock
      (os.accept (L ++ s.log) s.data.transferSock) :: L, retval, w,
      by rw [hlog]; simp, fun hc => ?_⟩
    obtain ⟨hfit, hsent⟩ := hN fun e he => hc e (List.mem_append_left _ he)
    refine ⟨hfit, fun h0 => ?_⟩
    rw [dataSent_append, hsent h0]
    have hLsent : dataSent L = 0 := dataSent_of_kind hL.ofKind (by decide)
    simpa [dataSent, Event.sent] using hLsent

/-! ### Both -/

/-- `RETR` of a file that is found sends all of it, if its announcement fits. -/
theorem sendsFile_iff_of_found {st : Stat} {n : ℕ} (hcomplete : CompletesRetr os s args len)
    (h : wp os (commandHandlerRetr args len) (fun _ s' => SendsAll st s s' args)
      (fun _ => False) s) :
    SendsFile os s args len n ↔ Announceable s.data args ∧ n = st.size := by
  obtain ⟨r, s', hrun, N, retval, w, hlog, hN⟩ := exists_run_of_wp h
  unfold CompletesRetr SendsFile commandHandle at *
  rw [wp_of_run hrun] at hcomplete ⊢
  have hc : ∀ e ∈ N, e.complete = true := fun e he =>
    hcomplete (.write .client s.data.clientSock (retrEnd retval false ++ crlf) w :: N)
      (by rw [hlog]; rfl) e (List.mem_cons_of_mem _ he)
  obtain ⟨hfit, hsent⟩ := hN hc
  rw [← hfit]
  constructor
  · rintro ⟨N', w', hlog', rfl⟩
    obtain ⟨hwrite, hrest⟩ := List.cons.inj (hlog.symm.trans hlog')
    obtain ⟨-, -, htext, -⟩ := Event.write.inj hwrite
    obtain rfl := List.append_cancel_right hrest
    -- only a status of zero leads to a 226
    have h0 : retval = 0 := by
      by_contra hne
      rw [retrEnd, if_neg hne] at htext
      exact absurd htext (by decide)
    exact ⟨h0, hsent h0⟩
  · rintro ⟨rfl, rfl⟩
    exact ⟨N, w, hlog, hsent rfl⟩

/-- What `SIZE` and `RETR` do when they find their file. -/
theorem exists_stat_of_found (hargs : 0 < len → (0 : Byte) ∈ args) (hfs : Steady os s)
    (hwait : DataWaiting os s) (hcomplete : CompletesRetr os s args len)
    (hfinds : FindsFile os s args len) :
    ∃ st : Stat, (∀ n, ReportsSize os s args len n ↔ n = st.size) ∧
      ∀ n, SendsFile os s args len n ↔ Announceable s.data args ∧ n = st.size := by
  obtain ⟨⟨r, hr⟩, -⟩ := id hfinds
  have hzero := hargs hr.spec.1
  obtain ⟨out, s1, hrun, h0⟩ := hfinds.exists_run
  obtain ⟨r, st, L, hr, hfile, hL, rfl, rfl⟩ := hfs.exists_file hrun h0
  have hretr : wp os (commandHandlerRetr args len) (fun _ s' => SendsAll st s s' args)
      (fun _ => False) s :=
    wp_commandHandlerRetr_found hrun hL hr hzero hwait fun N => (hfile N).2
  exact ⟨st, fun n => reportsSize_iff_of_found hrun (hfile L).1,
    fun n => sendsFile_iff_of_found hcomplete hretr⟩

/-- **`SIZE` and `RETR` agree if and only if the announcement fits**, when a file is found for the
argument: `RETR` sends the bytes that `SIZE` reports, and does not answer with a 226 when that
reports none. -/
theorem size_retr_agree_iff (hargs : 0 < len → (0 : Byte) ∈ args) (hfs : Steady os s)
    (hwait : DataWaiting os s) (hcomplete : CompletesRetr os s args len) :
    (∀ n, ReportsSize os s args len n ↔ SendsFile os s args len n) ↔
      (FindsFile os s args len → Announceable s.data args) := by
  by_cases hfinds : FindsFile os s args len
  · obtain ⟨st, hsize, hsends⟩ := exists_stat_of_found hargs hfs hwait hcomplete hfinds
    simp only [hsize, hsends]
    constructor
    · intro h _
      exact ((h st.size).mp rfl).1
    · intro h n
      exact ⟨fun hn => ⟨h hfinds, hn⟩, And.right⟩
  · exact iff_of_true (fun n => iff_of_false (not_reportsSize hfinds) (not_sendsFile hfinds))
      fun h => absurd h hfinds

/-- The array a handler is called with contains the NUL that ends its argument. -/
theorem Called.terminated {c : Command} {s1 : St} (hcall : Called os s c args len s1)
    (hlen : 0 < len) : (0 : Byte) ∈ args := by
  obtain ⟨-, -, -, hline, hfind⟩ := hcall
  rename_i bytes name
  obtain ⟨rest, hbuffer⟩ := lineBuffer_spec hline
  have hlong : name.length + 1 ≤ bytes.length - 2 := by
    unfold lineArgs at hlen
    split at hlen
    · omega
    · exact absurd hlen (by decide)
  rw [argsArray, if_pos (by omega), hbuffer, List.drop_append_of_le_length]
  · exact List.mem_append_right _ List.mem_cons_self
  · rw [List.length_take]
    omega

/-! ### Hosts -/

/-- Every path of a host leads back to its entry. -/
def Host.Distinct (h : Host) : Prop :=
  ∀ n ∈ h.nodes, (h.find n.path).map Host.statOf = some (Host.statOf n)

instance (h : Host) : Decidable h.Distinct :=
  inferInstanceAs (Decidable (∀ n ∈ h.nodes, _))

/-- The files of a host do not change. -/
theorem Host.steady {h : Host} (hdistinct : h.Distinct) (s : St) : Steady h.os s := by
  intro p r hr
  obtain ⟨n, hn, rfl⟩ := Option.map_eq_some_iff.mp hr
  have hstat := hdistinct n (List.mem_of_find?_eq_some hn)
  obtain ⟨m, hm, -⟩ := Option.map_eq_some_iff.mp hstat
  refine ⟨Host.statOf n, fun N => ⟨hstat, fun _ => ⟨rfl, ?_, ?_⟩⟩⟩
  · have hpos := unusedFd_pos (Host.openNow (N ++ s.log))
    have hopen : h.os.openFile (N ++ s.log) n.path = unusedFd (Host.openNow (N ++ s.log)) :=
      if_pos (by rw [hm]; rfl)
    omega
  · have hfstat : ∀ (log : Log) (fd : Int), h.os.fstat (.openFile n.path fd :: log) fd
        = some (Host.statOf n) := by
      intro log fd
      simp only [Host.os, Host.syscalls, List.findSome?_cons, hstat]
    exact hfstat _ _

/-- The path `/././…/f`, of 250 bytes. -/
def longName : List Byte := ascii "/" ++ (List.replicate 124 (ascii "./")).flatten ++ ascii "f"

/-- A machine with one file, which a long path leads to as well, and a client that asks for a data
connection. -/
def fileHost : Host :=
  { nodes := [Host.srv, { Host.node ["srv", "f"] .regular [1, 2, 3] Host.valid_f with
      names := [ascii "/srv" ++ longName] }],
    reads := [some (ascii "PASV" ++ crlf)], fileReads := [[1, 2, 3]] }

/-- The state in which a data connection is waiting there. -/
def fileAsked : St := Host.run fileHost.os 3 (Host.start fileHost.os Host.argv)

theorem file_waiting : DataWaiting fileHost.os fileAsked := by
  refine ⟨by decide +kernel, fun L hL => ?_⟩
  have hopen : fileAsked.data.transferSock ∈ Host.openNow (L ++ fileAsked.log) := by
    have hlog : fileAsked.data.transferSock ∈ Host.openNow fileAsked.log := by decide +kernel
    unfold Host.openNow at *
    rwa [openFds_append_of_neutral hL.neutral]
  have haccept : fileHost.os.accept (L ++ fileAsked.log) fileAsked.data.transferSock
      = unusedFd (Host.openNow (L ++ fileAsked.log)) := if_pos hopen
  have hpos := unusedFd_pos (Host.openNow (L ++ fileAsked.log))
  omega

/-- The calls complete in a run in which all records are complete. -/
theorem completesRetr_of_all
    (h : (commandHandlerRetr args len os s).2.log.all Event.complete = true) :
    CompletesRetr os s args len := by
  unfold CompletesRetr
  refine wp_mono (wp_self _) ?_ fun _ _ => trivial
  intro r s' hrun N hlog e he
  rw [show commandHandlerRetr args len os s = _ from hrun] at h
  exact List.all_eq_true.mp h e (hlog ▸ List.mem_append_left _ he)

/-- What `SIZE` of the file leaves behind. -/
def fileSized : St := (commandHandlerSize (ascii "f" ++ [0]) 1 fileHost.os fileAsked).2

theorem file_reported : ReportsSize fileHost.os fileAsked (ascii "f" ++ [0]) 1 3 := by
  have hrun : commandHandle .size (ascii "f" ++ [0]) 1 fileHost.os fileAsked
      = (some 0, fileSized) := Prod.ext (by decide +kernel) rfl
  refine (wp_of_run hrun).mpr ⟨(fileSized.log.drop 1).take 3, 7, ?_⟩
  decide +kernel

/-- `SIZE` reports three bytes, and `RETR` sends them. -/
theorem size_retr_agree_file : ReportsSize fileHost.os fileAsked (ascii "f" ++ [0]) 1 3 ∧
    SendsFile fileHost.os fileAsked (ascii "f" ++ [0]) 1 3 :=
  ⟨file_reported, ((size_retr_agree_iff (fun _ => by decide) (Host.steady (by decide +kernel) _)
    file_waiting (completesRetr_of_all (by decide +kernel))).mpr (fun _ => by decide +kernel) 3).mp
    file_reported⟩

/-- **A file whose path is too long to be announced**: `SIZE` reports three bytes, and `RETR`
answers with a 451. -/
theorem long_name_refused : ∃ args len n, Reachable fileHost.os Host.argv fileAsked ∧
    fileAsked.data.isConnected = true ∧
    handlerCall (ascii "RETR " ++ longName) = some (.retr, some ⟨5, len, longName⟩) ∧
    handlerCall (ascii "SIZE " ++ longName) = some (.size, some ⟨5, len, longName⟩) ∧
    args = longName ++ [0] ∧ Steady fileHost.os fileAsked ∧ DataWaiting fileHost.os fileAsked ∧
    CompletesRetr fileHost.os fileAsked args len ∧ ReportsSize fileHost.os fileAsked args len n ∧
    ¬ SendsFile fileHost.os fileAsked args len n := by
  have hfs : Steady fileHost.os fileAsked := Host.steady (by decide +kernel) _
  have hcomplete : CompletesRetr fileHost.os fileAsked (longName ++ [0]) 250 :=
    completesRetr_of_all (by decide +kernel)
  have hfinds : FindsFile fileHost.os fileAsked (longName ++ [0]) 250 := by
    have hret : (filePath (longName ++ [0]) 250 fileHost.os fileAsked).1.map (·.1.retval)
        = some 0 := by
      decide +kernel
    obtain ⟨out, hout, h0⟩ := Option.map_eq_some_iff.mp hret
    exact .of_run (Prod.ext hout rfl) h0
  obtain ⟨st, hsize, hsends⟩ :=
    exists_stat_of_found (fun _ => by simp) hfs file_waiting hcomplete hfinds
  refine ⟨longName ++ [0], 250, st.size, Host.reachable_run (by decide +kernel), by decide +kernel,
    by decide +kernel, by decide +kernel, rfl, hfs, file_waiting, hcomplete, (hsize _).mpr rfl, ?_⟩
  intro h
  have hfit := ((hsends _).mp h).1
  exact absurd hfit (by decide +kernel)

end VsFtp
