import VsFtp.Paths

/-!
# What the socket functions do

One specification for each function that opens or closes a socket, by the records
it adds to the log, and what these records do to the sockets the server holds.

## Main definitions

* `Neutral` — logs that open and close nothing.
* `NoLoss` — no socket was ever lost to a failing `shutdown`.
* `Closes`, `Creates` — the outcomes of the three close routines and of
  `CreatePassiveSocket`.
* `ServerData.retired` — the record without transfer sockets.

## Main results

* `wp_closeSocket`, `wp_closeTransfers`, `wp_createPassiveSocket`,
  `wp_serverClientDisconnect`, `wp_serverStop` — the specifications.
* `Closes.mem_held_iff`, `Closes.not_held` — only the socket that is closed is
  given up, and it is given up unless it is lost.
-/

namespace VsFtp

open CString Prog

/-! ### Held sockets and open descriptors -/

variable {os : Os} {log new : Log} {e : Event} {fd x : Int}

theorem mem_held_cons : x ∈ held (e :: log) ↔ x ∈ e.obtained ∨ x ∈ held log ∧ x ∉ e.released :=
  Ledger.mem_live_cons

theorem mem_openFds_cons {inherited : List Int} :
    x ∈ openFds inherited (e :: log)
      ↔ x ∈ e.opened ∨ x ∈ openFds inherited log ∧ x ∉ e.released :=
  Ledger.mem_live_cons

theorem Event.obtained_subset_opened (e : Event) : e.obtained ⊆ e.opened := by
  cases e <;> simp [Event.obtained, Event.opened]

theorem Event.nonneg_of_mem_obtained (h : x ∈ e.obtained) : 0 ≤ x := by
  cases e <;> simp [Event.obtained] at h <;> omega

theorem held_subset_openFds {inherited : List Int} : held log ⊆ openFds inherited log :=
  Ledger.live_subset Event.obtained_subset_opened (List.nil_subset _)

theorem nonneg_of_mem_held (h : x ∈ held log) : 0 ≤ x :=
  Ledger.forall_live (P := (0 ≤ ·)) (fun _ _ h => Event.nonneg_of_mem_obtained h) (by simp) x h

/-- The record opens and closes nothing. -/
def Event.isNeutral (e : Event) : Prop := e.opened = [] ∧ e.released = []

/-- None of the records opens or closes anything. -/
def Neutral (new : List Event) : Prop := ∀ e ∈ new, e.isNeutral

theorem held_append_of_neutral (h : Neutral new) : held (new ++ log) = held log :=
  Ledger.live_append_of_neutral fun e he =>
    ⟨List.subset_nil.mp ((h e he).1 ▸ e.obtained_subset_opened), (h e he).2⟩

theorem openFds_append_of_neutral {inherited : List Int} (h : Neutral new) :
    openFds inherited (new ++ log) = openFds inherited log := Ledger.live_append_of_neutral h

theorem Neutral.nil : Neutral [] := by simp [Neutral]

theorem Neutral.cons (h : Neutral new) (he : e.isNeutral) : Neutral (e :: new) := by
  simpa [Neutral] using ⟨he, h⟩

theorem Neutral.write (h : Neutral new) {who : Slot} {fd : Int} {bytes : List Byte} {r : Int} :
    Neutral (.write who fd bytes r :: new) := h.cons ⟨rfl, rfl⟩

theorem held_write {who : Slot} {bytes : List Byte} {r : Int} :
    held (.write who fd bytes r :: log) = held log := held_append_of_neutral Neutral.nil.write

theorem Lookups.neutral {L : List Event} (hL : Lookups L) : Neutral L := by
  intro e he
  have h := hL e he
  cases e <;> first | exact ⟨rfl, rfl⟩ | simp [Event.isLookup] at h

/-- The records open no socket and close none that is held. -/
def Sparing (log : Log) (new : List Event) : Prop :=
  ∀ e ∈ new, e.obtained = [] ∧ ∀ y ∈ e.released, y ∉ held log

/-- Every held socket stays, and none is added. -/
theorem Sparing.mem_held_iff (h : Sparing log new) : x ∈ held (new ++ log) ↔ x ∈ held log := by
  constructor
  · intro hx
    induction new with
    | nil => exact hx
    | cons e new ih =>
      rw [List.cons_append, mem_held_cons, (h e (by simp)).1] at hx
      rcases hx with hx | ⟨hx, -⟩
      · exact absurd hx List.not_mem_nil
      · exact ih (fun a ha => h a (by simp [ha])) hx
  · intro hx
    refine (Ledger.mem_live_append (fun e he hxe => ?_) fun e he hxe => ?_).mpr hx
    · rw [(h e he).1] at hxe
      exact absurd hxe List.not_mem_nil
    · exact (h e he).2 x hxe hx

/-- A `shutdown` that fails on a socket the server holds, after which the socket is
not closed. -/
def Event.loses (log : Log) : Event → Bool
  | .shutdown .checked fd r => decide (fd ∈ held log ∧ r ≠ 0)
  | _ => false

/-- No socket the server held was ever given up by a `shutdown` that failed. -/
def NoLoss : Log → Prop
  | [] => True
  | e :: log => e.loses log = false ∧ NoLoss log

instance NoLoss.decidable : (log : Log) → Decidable (NoLoss log)
  | [] => isTrue trivial
  | e :: log =>
      have := NoLoss.decidable log
      inferInstanceAs (Decidable (e.loses log = false ∧ NoLoss log))

theorem NoLoss.of_append (h : NoLoss (new ++ log)) : NoLoss log := by
  induction new with
  | nil => exact h
  | cons e new ih => exact ih h.2

theorem NoLoss.of_suffix {log' : Log} (h : NoLoss log') (hs : log <:+ log') : NoLoss log := by
  obtain ⟨new, rfl⟩ := hs
  exact h.of_append

/-! ### Closing -/

/-- What is added to the log when a socket is closed by one of the three routines
that look at the result of `shutdown`. -/
inductive Closes (fd : Int) : List Event → Prop
  | absent (h : fd = -1) : Closes fd []
  | lost {r : Int} (h : fd ≠ -1) (hr : r ≠ 0) : Closes fd [.shutdown .checked fd r]
  | closed {r : Int} (h : fd ≠ -1) : Closes fd [.close fd r, .shutdown .checked fd 0]

namespace Closes

variable {X : List Event}

theorem opened (h : Closes fd X) : ∀ e ∈ X, e.opened = [] := by
  cases h <;> simp [Event.opened, Event.obtained]

theorem released (h : Closes fd X) (hx : x ≠ fd) : ∀ e ∈ X, x ∉ e.released := by
  cases h <;> simp [Event.released, hx]

/-- Every other socket stays. -/
theorem mem_held_iff (h : Closes fd X) (hx : x ≠ fd) : x ∈ held (X ++ log) ↔ x ∈ held log := by
  refine Ledger.mem_live_append (fun e he hxe => ?_) (h.released hx)
  have hxo := e.obtained_subset_opened hxe
  rw [h.opened e he] at hxo
  exact List.not_mem_nil hxo

theorem held_subset (h : Closes fd X) (hx : x ∈ held (X ++ log)) : x ∈ held log := by
  by_cases hxf : x = fd
  · subst hxf
    cases h with
    | absent => exact hx
    | lost => simpa [mem_held_cons, Event.obtained, Event.released] using hx
    | closed => simp [mem_held_cons, Event.obtained, Event.released] at hx
  · exact (h.mem_held_iff hxf).mp hx

/-- **The socket is no longer held, unless it is lost.** -/
theorem not_held (h : Closes fd X) (hloss : NoLoss (X ++ log)) : fd ∉ held (X ++ log) := by
  cases h with
  | absent h =>
    intro hfd
    have := nonneg_of_mem_held hfd
    omega
  | lost _ hr =>
    intro hfd
    have hlog : fd ∈ held log := by simpa [mem_held_cons, Event.obtained, Event.released] using hfd
    have hnot := hloss.1
    simp only [Event.loses, decide_eq_false_iff_not] at hnot
    exact hnot ⟨hlog, hr⟩
  | closed => simp [mem_held_cons, Event.obtained, Event.released]

end Closes

section Specs

variable {s : St} {E : St → Prop}

theorem wp_closeSocket {slot : Slot} :
    wp os (closeSocket slot) (fun _ s' => ∃ X, Closes (s.data.sock slot) X ∧
      s' = ⟨s.data.setSock slot (-1), X ++ s.log⟩) E s := by
  unfold closeSocket
  refine (wp_bind _ _).mpr (wp_getData.mpr ?_)
  by_cases hfd : s.data.sock slot = -1
  · rw [if_neg (by simpa using hfd)]
    exact ⟨[], .absent hfd, rfl⟩
  · rw [if_pos hfd]
    simp only [onOk_zero]
    refine (wp_bind _ _).mpr ((wp_call _ _).mpr ((wp_bind _ _).mpr ?_))
    refine wp_onOk (fun h0 => ?_) (fun hr => ?_)
    · rw [h0]
      exact ⟨_, .closed hfd, rfl⟩
    · exact ⟨_, .lost hfd hr, rfl⟩

/-- The record without transfer sockets. -/
def ServerData.retired (d : ServerData) : ServerData :=
  { d with transferSock := -1, transferClientSock := -1 }

/-- Both transfer sockets are closed, the one of the transfer client first. -/
theorem wp_closeTransfers {α : Type} {m : ServerM α} {Q : α → St → Prop}
    (h : ∀ X Y, Closes s.data.transferClientSock X → Closes s.data.transferSock Y →
      wp os m Q E ⟨s.data.retired, Y ++ (X ++ s.log)⟩) :
    wp os (do
      let _ ← serverCloseTransferClientSocket
      let _ ← serverCloseTransferSocket
      m) Q E s := by
  refine wp_seq wp_closeSocket ?_
  rintro _ _ ⟨X, hX, rfl⟩
  refine wp_seq wp_closeSocket ?_
  rintro _ _ ⟨Y, hY, rfl⟩
  exact h X Y hX hY

/-- The record without a client. -/
def ServerData.disconnected (d : ServerData) : ServerData :=
  { d.retired with clientSock := -1, isConnected := false }

/-- The outcome of `VSFTPServerClientDisconnect`. -/
inductive Disconnects (s : St) : St → Prop
  | mk {X Y Z : List Event} (hX : Closes s.data.transferClientSock X)
      (hY : Closes s.data.transferSock Y) (hZ : Closes s.data.clientSock Z) :
      Disconnects s ⟨s.data.disconnected, Z ++ (Y ++ (X ++ .disconnect :: s.log))⟩

theorem wp_serverClientDisconnect :
    wp os serverClientDisconnect (fun _ s' => Disconnects s s') E s := by
  unfold serverClientDisconnect
  refine (wp_bind _ _).mpr ((wp_emit _).mpr (wp_closeTransfers fun X Y hX hY => ?_))
  refine wp_seq wp_closeSocket ?_
  rintro _ _ ⟨Z, hZ, rfl⟩
  exact .mk hX hY hZ

/-- What is added to the log when the listening socket is closed. -/
inductive Shuts (fd : Int) : List Event → Prop
  | absent (h : fd = -1) : Shuts fd []
  | closed {r r' : Int} (h : fd ≠ -1) : Shuts fd [.close fd r, .shutdown .unchecked fd r']

/-- The record of a server that is stopped. -/
def ServerData.stopped (d : ServerData) : ServerData :=
  { d.disconnected with serverSock := -1, isServerSocketCreated := false }

/-- The outcome of `VSFTPServerStop`. -/
inductive Stops (s : St) : St → Prop
  | mk {X Y Z W : List Event} (hX : Closes s.data.transferClientSock X)
      (hY : Closes s.data.transferSock Y) (hZ : Closes s.data.clientSock Z)
      (hW : Shuts s.data.serverSock W) :
      Stops s ⟨s.data.stopped, W ++ (Z ++ (Y ++ (X ++ .stopped :: s.log)))⟩

/-- Stopping the server always succeeds. -/
theorem wp_serverStop_zero : wp os serverStop (fun r s' => r = 0 ∧ Stops s s') E s := by
  unfold serverStop
  refine (wp_bind _ _).mpr ((wp_emit _).mpr (wp_closeTransfers fun X Y hX hY => ?_))
  refine wp_seq wp_closeSocket ?_
  rintro _ _ ⟨Z, hZ, rfl⟩
  refine (wp_bind _ _).mpr (wp_getData.mpr ((wp_bind _ _).mpr ?_))
  refine wp_ite (fun hfd => ?_) (fun hfd => ?_)
  · exact ⟨rfl, Stops.mk (s := s) hX hY hZ (.closed hfd)⟩
  · have hfd' : s.data.serverSock = -1 := not_not.mp hfd
    have h : Stops s ⟨s.data.stopped, [] ++ (Z ++ (Y ++ (X ++ .stopped :: s.log)))⟩ :=
      .mk hX hY hZ (.absent hfd')
    have hdata : s.data.stopped =
        { s.data.disconnected with isServerSocketCreated := false } := by
      simp [ServerData.stopped, ServerData.disconnected, ServerData.retired, hfd']
    rw [hdata] at h
    exact ⟨rfl, h⟩

theorem wp_serverStop : wp os serverStop (fun _ s' => Stops s s') E s :=
  wp_mono wp_serverStop_zero (fun _ _ h => h.2) fun _ h => h

/-! ### Opening -/

/-- The calls that set up a listening socket, as long as it does not listen. -/
def Event.isSetup : Event → Bool
  | .fcntl _ _ => true
  | .setsockopt _ _ => true
  | .bind _ _ _ => true
  | .listen _ r => decide (r ≠ 0)
  | _ => false

theorem Event.isNeutral_of_isSetup (h : e.isSetup = true) : e.isNeutral := by
  cases e <;> first | exact ⟨rfl, rfl⟩ | simp [Event.isSetup] at h

/-- The outcome of `CreatePassiveSocket`: the status, the socket, and what is
added to the log. -/
inductive Creates (port : UInt16) : Int → Int → List Event → Prop
  | failed {retval fd r r' : Int} {N : List Event} (hr : retval ≠ 0)
      (hN : ∀ e ∈ N, e.isSetup = true) :
      Creates port retval fd (.close fd r :: .shutdown .unchecked fd r' :: (N ++ [.socket fd]))
  | created {fd : Int} (hfd : fd ≠ -1) :
      Creates port 0 fd [.listen fd 0, .bind fd port 0, .setsockopt fd 0, .fcntl fd 0, .socket fd]

/-- A call that sets up a listening socket fails. -/
def Event.failsSetup : Event → Bool
  | .fcntl _ r => decide (r ≠ 0)
  | .setsockopt _ r => decide (r ≠ 0)
  | .bind _ _ r => decide (r ≠ 0)
  | .listen _ r => decide (r ≠ 0)
  | _ => false

/-- The outcome of `CreatePassiveSocket` in more detail: there is no socket, or one of the calls
that set it up fails, or all of them succeed. -/
inductive Attempt (port : UInt16) : Int → Int → List Event → Prop
  | unavailable {retval r r' : Int} (hr : retval ≠ 0) :
      Attempt port retval (-1) [.close (-1) r, .shutdown .unchecked (-1) r', .socket (-1)]
  | failed {retval fd r r' : Int} {N : List Event} (hfd : fd ≠ -1) (hr : retval ≠ 0)
      (hN : ∀ e ∈ N, e.isSetup = true) (hfail : ∃ e ∈ N, e.failsSetup = true) :
      Attempt port retval fd (.close fd r :: .shutdown .unchecked fd r' :: (N ++ [.socket fd]))
  | created {fd : Int} (hfd : fd ≠ -1) :
      Attempt port 0 fd [.listen fd 0, .bind fd port 0, .setsockopt fd 0, .fcntl fd 0, .socket fd]

theorem Attempt.creates {port : UInt16} {retval : Int} {C : List Event}
    (h : Attempt port retval fd C) : Creates port retval fd C := by
  cases h with
  | unavailable hr => exact Creates.failed (N := []) hr (fun e he => absurd he List.not_mem_nil)
  | failed _ hr hN => exact .failed hr hN
  | created hfd => exact .created hfd

/-- One call of the chain in `CreatePassiveSocket`, after `done` calls that all
succeeded or some calls of which one failed. -/
theorem wp_setupCall {retval : Int} {answer : Os → Log → Int} {record : Int → Event}
    (done : List Event) (base : Log) (hrec : ∀ r, r ≠ 0 → (record r).isSetup = true)
    (hfail : ∀ r, r ≠ 0 → (record r).failsSetup = true)
    (hdone : ∀ e ∈ done, e.isSetup = true)
    (hs : retval = 0 ∧ s.log = done ++ base ∨ retval ≠ 0 ∧ ∃ N, (∀ e ∈ N, e.isSetup = true) ∧
      (∃ e ∈ N, e.failsSetup = true) ∧ s.log = N ++ base) :
    wp os (onOk retval (Prog.call answer record : ServerM Int))
      (fun retval' s' => s'.data = s.data ∧
        (retval' = 0 ∧ s'.log = record 0 :: done ++ base ∨
          retval' ≠ 0 ∧ ∃ N, (∀ e ∈ N, e.isSetup = true) ∧ (∃ e ∈ N, e.failsSetup = true) ∧
            s'.log = N ++ base)) E s := by
  refine wp_onOk (fun h0 => ?_) (fun hne => ⟨rfl, ?_⟩)
  · obtain ⟨-, hlog⟩ | ⟨hne, -⟩ := hs
    · refine (wp_call _ _).mpr ⟨rfl, ?_⟩
      by_cases hr : answer os s.log = 0
      · exact Or.inl ⟨hr, by rw [hr, hlog]; rfl⟩
      · refine Or.inr ⟨hr, record (answer os s.log) :: done, ?_,
          ⟨_, List.mem_cons_self, hfail _ hr⟩, by rw [hlog]; rfl⟩
        intro e he
        rcases List.mem_cons.mp he with rfl | he
        · exact hrec _ hr
        · exact hdone e he
    · exact absurd h0 hne
  · obtain ⟨h0, -⟩ | h := hs
    · exact absurd h0 hne
    · exact Or.inr h

theorem wp_createPassiveSocket_attempt {port : UInt16} {slot : Slot} :
    wp os (createPassiveSocket port slot) (fun retval s' => ∃ C,
      Attempt port retval (os.socket s.log) C ∧
        s' = ⟨s.data.setSock slot (os.socket s.log), C ++ s.log⟩) E s := by
  unfold createPassiveSocket
  refine (wp_bind _ _).mpr ((wp_call _ _).mpr ((wp_bind _ _).mpr ((wp_modifyData _).mpr ?_)))
  generalize hfd : os.socket s.log = fd
  by_cases hfd1 : fd = -1
  · subst hfd1
    simp only [if_true]
    exact ⟨_, .unavailable (by decide), rfl⟩
  · simp only [if_neg hfd1]
    refine wp_seq (wp_setupCall [] (.socket fd :: s.log) (fun _ _ => rfl)
      (fun _ => decide_eq_true) (by simp) (Or.inl ⟨rfl, rfl⟩)) ?_
    rintro r1 ⟨_, l1⟩ ⟨rfl, h1⟩
    refine wp_seq (wp_setupCall _ _ (fun _ _ => rfl) (fun _ => decide_eq_true)
      (by simp [Event.isSetup]) h1) ?_
    rintro r2 ⟨_, l2⟩ ⟨rfl, h2⟩
    refine wp_seq (wp_setupCall _ _ (fun _ _ => rfl) (fun _ => decide_eq_true)
      (by simp [Event.isSetup]) h2) ?_
    rintro r3 ⟨_, l3⟩ ⟨rfl, h3⟩
    refine wp_seq (wp_setupCall _ _ (fun _ => decide_eq_true) (fun _ => decide_eq_true)
      (by simp [Event.isSetup]) h3) ?_
    rintro r4 ⟨_, l4⟩ ⟨rfl, h4⟩
    refine wp_ite (fun h0 => ?_) (fun hne => ?_)
    · obtain ⟨-, rfl⟩ | ⟨hne, -⟩ := h4
      · rw [h0]
        exact ⟨_, .created hfd1, rfl⟩
      · exact absurd h0 hne
    · obtain ⟨h0, -⟩ | ⟨-, N, hN, hfail, rfl⟩ := h4
      · exact absurd h0 hne
      · exact ⟨_, .failed hfd1 hne hN hfail,
          congrArg (fun l => (⟨_, _ :: _ :: l⟩ : St)) (List.append_cons N _ s.log)⟩

theorem wp_createPassiveSocket {port : UInt16} {slot : Slot} :
    wp os (createPassiveSocket port slot) (fun retval s' => ∃ C,
      Creates port retval (os.socket s.log) C ∧
        s' = ⟨s.data.setSock slot (os.socket s.log), C ++ s.log⟩) E s :=
  wp_mono wp_createPassiveSocket_attempt (fun _ _ ⟨C, hC, h⟩ => ⟨C, hC.creates, h⟩) fun _ h => h

/-- The outcome of `VSFTPServerAcceptTransferClientConnection` on the socket `t`,
where `accept` answers `a` and `x` was the transfer client: the status, the
transfer client, and what is added to the log. -/
inductive Accepts (t a x : Int) : Int → Int → List Event → Prop
  | absent (ht : t = -1) : Accepts t a x (-1) x []
  | refused (ht : t ≠ -1) (ha : a < 0) : Accepts t a x (-1) x [.accept .transferClient t a]
  | accepted (ht : t ≠ -1) (ha : 0 ≤ a) : Accepts t a x 0 a [.accept .transferClient t a]

theorem wp_serverAcceptTransferClientConnection :
    wp os serverAcceptTransferClientConnection (fun retval s' => ∃ x A,
      Accepts s.data.transferSock (os.accept s.log s.data.transferSock) s.data.transferClientSock
        retval x A ∧
      s' = ⟨{ s.data with transferClientSock := x }, A ++ s.log⟩) E s := by
  unfold serverAcceptTransferClientConnection
  refine (wp_bind _ _).mpr (wp_getData.mpr (wp_ite (fun ht => ?_) (fun ht => ?_)))
  · refine (wp_bind _ _).mpr ((wp_call _ _).mpr (wp_ite (fun ha => ?_) (fun ha => ?_)))
    · exact ⟨_, _, .accepted ht ha, rfl⟩
    · exact ⟨_, _, .refused ht (by omega), rfl⟩
  · exact ⟨_, _, .absent (not_not.mp ht), rfl⟩

end Specs

end VsFtp
