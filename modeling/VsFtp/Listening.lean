import VsFtp.Host
import VsFtp.Invariants
import VsFtp.Turns

/-!
# The listening socket of a transfer

`PASV` closes the transfer sockets there are, makes a new one that listens, and answers with the
address and the port.  When a call that sets the socket up fails, the socket is closed, but the
record keeps its number.

## Main definitions

* `EntersPassive` — what the numbers in a 227 reply say.
* `AllOrNothing` — the client is told of a socket that listens, or there is none.
* `Untroubled` — the calls do not fail halfway.

## Main results

* `entersPassive_pasvReply` — the reply says the configured address and the port.
* `pasv_all_or_nothing_iff` — **`PASV` is all or nothing if and only if the earlier sockets can
  be shut down and the new one can be set up.**
* `port_in_use` — a failed `bind`, after which the record still has a transfer socket.
-/

namespace VsFtp

open CString Prog

attribute [local irreducible] serverSendReply helpText

variable {os : Os} {s s' s1 s2 : St} {E : St → Prop} {argv : Argv} {ip : List Byte}

/-! ### Numbers in replies -/

theorem IsOctet.commas {part : List Byte} (h : IsOctet part) : commas part = part := by
  unfold VsFtp.commas
  refine (List.map_congr_left fun c hc => if_neg ?_).trans (List.map_id part)
  rintro rfl
  exact absurd (h.digits _ hc).1 (by decide)

theorem IsOctet.noNul {part : List Byte} (h : IsOctet part) : NoNul part :=
  fun h0 => absurd (h.digits _ h0).1 (by decide)

theorem noNul_of_inetPton (h : inetPton ip = true) : NoNul ip := by
  obtain ⟨a, b, c, d, ha, hb, hc, hd, rfl⟩ := exists_octets h
  exact ha.noNul.append (.cons (by decide) (hb.noNul.append (.cons (by decide)
    (hc.noNul.append (.cons (by decide) hd.noNul)))))

/-- A 227 reply with six numbers: four octets, which with dots between them are the address, and
the two halves of the port. -/
def EntersPassive (ip : List Byte) (port : UInt16) (text : List Byte) : Prop :=
  ∃ a b c d p q, (∀ part ∈ [a, b, c, d, p, q], IsOctet part) ∧
    [46].intercalate [a, b, c, d] = ip ∧ number p * 256 + number q = port.toNat ∧
    text = ascii "227 Entering Passive Mode (" ++ [44].intercalate [a, b, c, d, p, q] ++
      ascii ")." ++
      crlf

/-- **The reply to `PASV` says the address of the command line and the port.** -/
theorem entersPassive_pasvReply (h : inetPton ip = true) :
    EntersPassive ip pasvPortNumber (pasvReply (commas ip) 156 64 ++ crlf) := by
  obtain ⟨a, b, c, d, ha, hb, hc, hd, rfl⟩ := exists_octets h
  have hp : IsOctet (ascii "156") := ⟨by decide, by decide, by decide +kernel, by decide⟩
  have hq : IsOctet (ascii "64") := ⟨by decide, by decide, by decide +kernel, by decide⟩
  refine ⟨a, b, c, d, ascii "156", ascii "64", ?_, by simp [List.intercalate], by decide, ?_⟩
  · simp only [List.mem_cons, List.not_mem_nil, or_false]
    rintro _ (rfl | rfl | rfl | rfl | rfl | rfl) <;> assumption
  · have hcommas : commas (a ++ 46 :: (b ++ 46 :: (c ++ 46 :: d)))
        = a ++ 44 :: (b ++ 44 :: (c ++ 44 :: d)) := by
      have hdef : ∀ u v : List Byte, commas (u ++ 46 :: v) = commas u ++ 44 :: commas v :=
        fun u v => by simp [commas]
      rw [hdef, hdef, hdef, ha.commas, hb.commas, hc.commas, hd.commas]
    have h1 : decimal (156 : UInt8).toNat = ascii "156" := by decide
    have h2 : decimal (64 : UInt8).toNat = ascii "64" := by decide
    have h3 : ascii "," = [44] := by decide
    rw [pasvReply, hcommas, h1, h2, h3]
    simp [List.intercalate]

/-! ### All or nothing -/

/-- What `PASV` leaves, between `s` and `s'`, with the records of what it did before its reply:
each earlier transfer socket that is open is closed before a new one is made; and then the reply
is a 227 that says the address and the port on which the transfer socket listens, or it is a 425
and there is no transfer socket, and none is left open. -/
def AllOrNothing (ip : List Byte) (s s' : St) : Prop :=
  ∃ N text w, s'.log = .write .client s.data.clientSock text w :: (N ++ s.log) ∧
    (∀ fd, fd = s.data.transferClientSock ∨ fd = s.data.transferSock → fd ∈ held s.log →
      ∃ A sock B r, N = A ++ .socket sock :: B ∧ .close fd r ∈ B) ∧
    ((∃ port, EntersPassive ip port text ∧ .bind s'.data.transferSock port 0 ∈ N ∧
        .listen s'.data.transferSock 0 ∈ N ∧ s'.data.transferSock ∈ held s'.log) ∨
      ascii "425" <+: text ∧ s'.data.transferSock = -1 ∧ ∀ fd ∈ held s'.log, fd ∈ held s.log)

/-- Between `s` and `s'` the earlier transfer sockets that are open can be shut down, and no call
that sets a socket up fails. -/
def Untroubled (s s' : St) : Prop :=
  ∃ N, s'.log = N ++ s.log ∧ (∀ e ∈ N, e.failsSetup = false) ∧
    ∀ fd, fd = s.data.transferClientSock ∨ fd = s.data.transferSock → fd ∈ held s.log →
      .shutdown .checked fd 0 ∈ N

section

variable {d : ServerData} {N : List Event} {text : List Byte} {w : Int}

theorem allOrNothing_iff : AllOrNothing ip s ⟨d, .write .client s.data.clientSock text w ::
    (N ++ s.log)⟩ ↔
    (∀ fd, fd = s.data.transferClientSock ∨ fd = s.data.transferSock → fd ∈ held s.log →
      ∃ A sock B r, N = A ++ .socket sock :: B ∧ .close fd r ∈ B) ∧
    ((∃ port, EntersPassive ip port text ∧ .bind d.transferSock port 0 ∈ N ∧
        .listen d.transferSock 0 ∈ N ∧ d.transferSock ∈ held (N ++ s.log)) ∨
      ascii "425" <+: text ∧ d.transferSock = -1 ∧ ∀ fd ∈ held (N ++ s.log), fd ∈ held s.log) := by
  constructor
  · rintro ⟨N', text', w', hlog, hfirst, htold⟩
    obtain ⟨hwrite, hN⟩ := List.cons.inj hlog
    obtain ⟨-, -, rfl, rfl⟩ := Event.write.inj hwrite
    obtain rfl := List.append_cancel_right hN
    simp only [held_write] at htold
    exact ⟨hfirst, htold⟩
  · rintro ⟨hfirst, htold⟩
    refine ⟨N, text, w, rfl, hfirst, ?_⟩
    simp only [held_write]
    exact htold

theorem untroubled_iff : Untroubled s ⟨d, .write .client s.data.clientSock text w ::
    (N ++ s.log)⟩ ↔ (∀ e ∈ N, e.failsSetup = false) ∧
      ∀ fd, fd = s.data.transferClientSock ∨ fd = s.data.transferSock → fd ∈ held s.log →
        .shutdown .checked fd 0 ∈ N := by
  constructor
  · rintro ⟨N', hlog, hfails, hshut⟩
    obtain rfl : _ :: N = N' := List.append_cancel_right hlog
    refine ⟨fun e he => hfails e (List.mem_cons_of_mem _ he), fun fd hfd hheld => ?_⟩
    simpa using hshut fd hfd hheld
  · rintro ⟨hfails, hshut⟩
    refine ⟨_ :: N, rfl, ?_, fun fd hfd hheld => List.mem_cons_of_mem _ (hshut fd hfd hheld)⟩
    exact List.forall_mem_cons.mpr ⟨rfl, hfails⟩

end

/-! ### The two sockets that are closed -/

/-- A socket that is closed was shut down. -/
theorem Closes.shutdown_of_close {fd x r : Int} {X : List Event} (h : Closes x X)
    (hc : .close fd r ∈ X) : .shutdown .checked fd 0 ∈ X := by
  cases h with
  | absent => simp at hc
  | lost => simp at hc
  | closed =>
    obtain ⟨rfl, -⟩ : fd = x ∧ r = _ := by simpa using hc
    simp

/-- A socket that was shut down is closed. -/
theorem Closes.close_of_shutdown {fd x : Int} {X : List Event} (h : Closes x X)
    (hc : .shutdown .checked fd 0 ∈ X) : ∃ r, .close fd r ∈ X := by
  cases h with
  | absent => simp at hc
  | @lost r _ hr =>
    have h0 : fd = x ∧ 0 = r := by simpa using hc
    exact absurd h0.2.symm hr
  | @closed r =>
    obtain rfl : fd = x := by simpa using hc
    exact ⟨r, by simp⟩

theorem Closes.not_socket {fd x : Int} {X : List Event} (h : Closes fd X) : .socket x ∉ X := by
  cases h <;> simp

theorem Closes.failsSetup {fd : Int} {X : List Event} (h : Closes fd X) :
    ∀ e ∈ X, e.failsSetup = false := by
  cases h <;> simp [Event.failsSetup]

/-! ### The socket that is made -/

section Attempts

variable {port : UInt16} {retval fd : Int} {C : List Event} {log : Log}

/-- The first record of an attempt is that of `socket`, and there is no other. -/
theorem Attempt.exists_socket (h : Attempt port retval fd C) :
    ∃ A, C = A ++ [.socket fd] ∧ ∀ x, .socket x ∉ A := by
  cases h with
  | unavailable => exact ⟨[_, _], rfl, by simp⟩
  | failed _ _ hN =>
    refine ⟨_ :: _ :: _, rfl, fun x hmem => ?_⟩
    simp only [List.mem_cons, reduceCtorEq, false_or] at hmem
    exact absurd (hN _ hmem) (by simp [Event.isSetup])
  | created => exact ⟨[_, _, _, _], rfl, by simp⟩

/-- An attempt shuts no transfer socket down. -/
theorem Attempt.not_shutdown (h : Attempt port retval fd C) {x : Int} :
    .shutdown .checked x 0 ∉ C := by
  cases h with
  | unavailable => simp
  | failed _ _ hN =>
    intro hmem
    simp only [List.mem_cons, List.mem_append, List.not_mem_nil, or_false, reduceCtorEq, false_or,
      Event.shutdown.injEq, false_and] at hmem
    exact absurd (hN _ hmem) (by simp [Event.isSetup])
  | created => simp

/-- What is held after an attempt that made no socket was held before. -/
theorem Attempt.held_subset (h : Attempt port retval fd C) (hr : retval ≠ 0) {x : Int}
    (hx : x ∈ held (C ++ log)) : x ∈ held log := by
  cases h with
  | unavailable =>
    simp only [List.cons_append, List.nil_append, mem_held_cons, Event.obtained,
      Event.released] at hx
    simpa using hx.resolve_left List.not_mem_nil |>.1
  | failed _ _ hN =>
    have hneutral : Neutral _ := fun e he => Event.isNeutral_of_isSetup (hN e he)
    rw [List.cons_append, mem_held_cons, List.cons_append, mem_held_cons, List.append_assoc,
      held_append_of_neutral hneutral, List.cons_append, List.nil_append, mem_held_cons] at hx
    simp only [Event.obtained, Event.released, List.not_mem_nil, false_or, List.mem_singleton,
      not_false_iff, and_true] at hx
    obtain ⟨hx, hne⟩ := hx
    rcases hx with hx | hx
    · split at hx
      · exact absurd hx List.not_mem_nil
      · exact absurd (List.mem_singleton.mp hx) hne
    · exact hx
  | created => exact absurd rfl hr

/-- The socket that was made is open. -/
theorem Attempt.mem_held (h : Attempt port 0 fd C) (hpos : 0 ≤ fd) : fd ∈ held (C ++ log) := by
  generalize h0 : (0 : Int) = r at h
  cases h with
  | unavailable hr => exact absurd h0.symm hr
  | failed _ hr => exact absurd h0.symm hr
  | created => simp [mem_held_cons, Event.obtained, Event.released, hpos]

end Attempts

section Outcome

variable {X Y C : List Event} {retval fd : Int}

/-- The earlier sockets are closed before the new one is made if and only if they can be shut
down. -/
theorem closes_first_iff (hX : Closes s.data.transferClientSock X)
    (hY : Closes s.data.transferSock Y) (hC : Attempt pasvPortNumber retval fd C) {x : Int} :
    (∃ A sock B r, C ++ (Y ++ X) = A ++ .socket sock :: B ∧ .close x r ∈ B) ↔
      .shutdown .checked x 0 ∈ C ++ (Y ++ X) := by
  obtain ⟨A0, hA0, hnone⟩ := hC.exists_socket
  have hdecomp : C ++ (Y ++ X) = A0 ++ .socket fd :: (Y ++ X) := by rw [hA0]; simp
  constructor
  · rintro ⟨A, sock, B, r, hN, hr⟩
    -- there is one record of `socket`, so what is before it is what closes the sockets
    have hold : .socket sock ∉ Y ++ X := fun hmem =>
      (List.mem_append.mp hmem).elim hY.not_socket hX.not_socket
    obtain ⟨-, -, rfl⟩ :=
      (List.append_cons_inj_of_notMem (hnone sock) hold).mp (hdecomp.symm.trans hN)
    refine List.mem_append_right C (List.mem_append.mpr ?_)
    exact (List.mem_append.mp hr).imp hY.shutdown_of_close hX.shutdown_of_close
  · intro h
    rcases List.mem_append.mp h with h | h
    · exact absurd h hC.not_shutdown
    · refine ⟨A0, fd, Y ++ X, ?_⟩
      rcases List.mem_append.mp h with h | h
      · obtain ⟨r, hr⟩ := hY.close_of_shutdown h
        exact ⟨r, hdecomp, List.mem_append_left X hr⟩
      · obtain ⟨r, hr⟩ := hX.close_of_shutdown h
        exact ⟨r, hdecomp, List.mem_append_right Y hr⟩

/-- The calls that close sockets are none that set one up. -/
theorem failsSetup_append_iff (hX : Closes s.data.transferClientSock X)
    (hY : Closes s.data.transferSock Y) :
    (∀ e ∈ C ++ (Y ++ X), e.failsSetup = false) ↔ ∀ e ∈ C, e.failsSetup = false := by
  refine ⟨fun h e he => h e (List.mem_append_left _ he), fun h e he => ?_⟩
  rcases List.mem_append.mp he with he | he
  · exact h e he
  · exact (List.mem_append.mp he).elim (hY.failsSetup e) (hX.failsSetup e)

theorem not_entersPassive_noConnection {port : UInt16} : ¬ EntersPassive ip port noConnection := by
  rintro ⟨a, b, c, d, p, q, -, -, -, h⟩
  have hcode : ascii "227" <+: ascii "227 Entering Passive Mode (" := by decide
  have hpre : ascii "227" <+: noConnection := by
    rw [h]
    simp only [List.append_assoc]
    exact hcode.trans (List.prefix_append _ _)
  exact absurd hpre (by decide)

/-- After a 425 there is no transfer socket. -/
theorem AllOrNothing.transferSock {fd w : Int} (h : AllOrNothing ip s s')
    (hsent : s'.log.head? = some (.write .client fd noConnection w)) :
    s'.data.transferSock = -1 := by
  obtain ⟨N, text, w', hlog, -, htold⟩ := h
  rw [hlog] at hsent
  obtain ⟨-, -, rfl, -⟩ := Event.write.inj (Option.some.inj hsent)
  rcases htold with ⟨port, hport, -⟩ | ⟨-, hno, -⟩
  · exact absurd hport not_entersPassive_noConnection
  · exact hno

/-- The reply matches the transfer socket if and only if no call that sets it up fails. -/
theorem Attempt.told_iff (h : Attempt pasvPortNumber retval fd C) (hip : inetPton ip = true)
    (hfd : fd = -1 ∨ 0 ≤ fd) {Z : List Event} {log : Log} (hZ : ∀ x ∈ held (Z ++ log), x ∈ held log)
    {text : List Byte}
    (htext : text = if retval = 0 then pasvReply (commas ip) 156 64 ++ crlf else noConnection) :
    ((∃ port, EntersPassive ip port text ∧ .bind fd port 0 ∈ C ++ Z ∧ .listen fd 0 ∈ C ++ Z ∧
        fd ∈ held (C ++ (Z ++ log))) ∨
      ascii "425" <+: text ∧ fd = -1 ∧ ∀ x ∈ held (C ++ (Z ++ log)), x ∈ held log) ↔
      ∀ e ∈ C, e.failsSetup = false := by
  have hrefused : ascii "425" <+: noConnection := by decide
  have hall := h
  cases h with
  | unavailable hr =>
    rw [if_neg hr] at htext
    subst htext
    refine iff_of_true (.inr ⟨hrefused, rfl, fun x hx => hZ x (hall.held_subset hr hx)⟩) ?_
    simp [Event.failsSetup]
  | failed hne hr _ hfail =>
    -- a call behind `socket` failed: the client is told of no port, and the slot keeps the socket
    rw [if_neg hr] at htext
    subst htext
    refine iff_of_false ?_ fun hall => ?_
    · rintro (⟨port, hport, -⟩ | ⟨-, hno, -⟩)
      · exact not_entersPassive_noConnection hport
      · exact hne hno
    · obtain ⟨e, he, hfails⟩ := hfail
      have hno := hall e (List.mem_cons_of_mem _ (List.mem_cons_of_mem _
        (List.mem_append_left _ he)))
      exact absurd (hno.symm.trans hfails) Bool.false_ne_true
  | created hne =>
    rw [if_pos rfl] at htext
    subst htext
    refine iff_of_true (.inl ⟨pasvPortNumber, entersPassive_pasvReply hip, by simp, by simp, ?_⟩) ?_
    · exact hall.mem_held (hfd.resolve_left hne)
    · simp [Event.failsSetup]

end Outcome

/-! ### The handler -/

/-- **`PASV` is all or nothing if and only if the earlier sockets can be shut down and no call
fails halfway.** -/
theorem pasv_all_or_nothing_iff (h : Reachable os argv s) {args : List Byte} {len : ℕ}
    (hcall : Called os s .pasv args len s1) :
    wp os (commandHandle .pasv args len)
      (fun _ s2 => AllOrNothing argv.ipAddr s1 s2 ↔ Untroubled s1 s2) (fun _ => False) s1 := by
  obtain ⟨hip, hstored⟩ := h.located
  have hlen := length_lt_of_inetPton hip
  have hstored1 : s1.data.ipAddr = strncpy [] 0 argv.ipAddr inetAddrstrlen := by
    rw [hcall.data, hstored]
  refine wp_mono (wp_commandHandlerPasv_attempt args len
    (hstored1 ▸ addressed_strncpy hlen)) ?_ fun _ h => h
  rintro _ s2 ⟨X, Y, C, retval, w, behind, hX, hY, hC, -, rfl⟩
  rw [hstored1, cstr_strncpy (noNul_of_inetPton hip) hlen]
  have hfd := (os.socket_fresh (Y ++ (X ++ s1.log))).imp_right And.left
  have hheld : ∀ x ∈ held (Y ++ X ++ s1.log), x ∈ held s1.log := fun x hx =>
    hX.held_subset (hY.held_subset (List.append_assoc Y X _ ▸ hx))
  have hsplit : C ++ (Y ++ (X ++ s1.log)) = (C ++ (Y ++ X)) ++ s1.log := by simp
  rw [hsplit, allOrNothing_iff, untroubled_iff, and_comm (a := ∀ e ∈ _, _)]
  refine and_congr (forall_congr' fun x => imp_congr_right fun _ => imp_congr_right fun _ =>
    closes_first_iff hX hY hC) ?_
  simp only [List.append_assoc]
  rw [failsSetup_append_iff hX hY, ← hC.told_iff hip hfd hheld rfl, List.append_assoc]

/-- A machine on which the client asks for a passive connection, and then for another one. -/
def pasvHost : Host :=
  { nodes := [Host.srv], reads := [some (ascii "PASV" ++ crlf), some (ascii "PASV" ++ crlf)] }

/-- The state in which it asks first, on a system that answers as that machine but for `bind`. -/
def pasvAsked (os : Os) : St := Host.run os 2 (Host.start os Host.argv)

/-- The state in which it asks again. -/
def pasvAgain : St := Host.run pasvHost.os 3 (Host.start pasvHost.os Host.argv)

/-- The state in which `CommandHandlerPasv` is called then. -/
def pasvCalled : St :=
  calledState (lineState pasvAgain (ascii "PASV" ++ crlf)) (lineBuffer (ascii "PASV" ++ crlf)) 4
    (ascii "PASV") .pasv

/-- The state in which it returns. -/
def pasvReturned : St := (commandHandle .pasv [] 0 pasvHost.os pasvCalled).2

/-- The first socket is given up for the second one, and the reply says where that is. -/
theorem pasv_all_or_nothing_again : pasvCalled.data.transferSock ∈ held pasvCalled.log ∧
    AllOrNothing Host.argv.ipAddr pasvCalled pasvReturned ∧
    pasvReturned.data.transferSock ∈ held pasvReturned.log := by
  have hcall : Called pasvHost.os pasvAgain .pasv [] 0 pasvCalled :=
    Called.mk (by decide +kernel) (by decide +kernel) (by decide +kernel) (by decide)
      (show commandFind (lineBuffer (ascii "PASV" ++ crlf)) = some (ascii "PASV", .pasv) by decide)
  have hrun : commandHandle .pasv [] 0 pasvHost.os pasvCalled = (some 0, pasvReturned) :=
    Prod.ext (by decide +kernel) (by rw [pasvReturned])
  have hiff := of_wp_run (pasv_all_or_nothing_iff (Host.reachable_run (n := 3) (by decide +kernel))
    hcall) hrun
  refine ⟨by decide +kernel, hiff.mpr ⟨pasvReturned.log.take 8, by decide +kernel,
    by decide +kernel, ?_⟩, by decide +kernel⟩
  rintro fd (rfl | rfl) hheld
  · exact absurd hheld (by decide +kernel)
  · decide +kernel

/-- The same machine with the data port in use. -/
def portInUse : Os :=
  { pasvHost.os with bind := fun _ _ port => if port = pasvPortNumber then -1 else 0 }

/-- **The `bind` of the data port fails**: the reply is a 425, the socket is closed, and the record
still names it. -/
theorem port_in_use : ∃ s args len s1 r s2, Reachable portInUse Host.argv s ∧
    Called portInUse s .pasv args len s1 ∧
    commandHandle .pasv args len portInUse s1 = (some r, s2) ∧
    ¬ AllOrNothing Host.argv.ipAddr s1 s2 := by
  have hread : received portInUse (pasvAsked portInUse) = some (ascii "PASV" ++ crlf) := by
    decide +kernel
  have hcall := Called.mk (by decide +kernel) (by decide +kernel) hread (by decide)
    (show commandFind _ = some (ascii "PASV", .pasv) by decide)
  refine ⟨_, _, _, _, 0, _, Host.reachable_run (by decide +kernel), hcall,
    Prod.ext (by decide +kernel) rfl, fun h => ?_⟩
  -- the reply was sent to the client, which has descriptor 4
  have hsock := @AllOrNothing.transferSock _ _ _ 4 noConnection.length h (by decide +kernel)
  exact absurd hsock (by decide +kernel)

end VsFtp
