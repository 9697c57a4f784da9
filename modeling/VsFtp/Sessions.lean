import VsFtp.Host
import VsFtp.Invariants
import VsFtp.Lib.Monitor

/-!
# One transfer for one passive socket

A client that wants a transfer first sends `PASV`, and then one `NLST` or `RETR`.
A monitor of the log keeps track of how far a session has got, and the run keeps in
step with it: whenever there is a transfer socket that can be accepted on, the monitor
has seen the `PASV` it belongs to.

## Main definitions

* `Phase`, `Event.next`, `phaseOf` — the monitor.
* `Event.announces` — a 150 reply.
* `Event.isMark`, `Event.spends` — records that end a command, and records after which
  the socket of an earlier `PASV` is used up.
* `Serial` — the invariant.

## Main results

* `Serial.step` — a step that returns zero keeps the invariant.
* `one_transfer_per_passive` — **a 150 reply is only sent for the first `NLST` or `RETR`
  behind a successful `PASV`.**
-/

namespace VsFtp

open CString Prog

attribute [local irreducible] serverSendReply helpText

variable {os : Os} {s s' s1 s2 : St} {argv : Argv} {log : Log} {N : List Event}

/-! ### The monitor -/

/-- How far a session has got with a transfer. -/
inductive Phase
  | idle
  /-- `PASV` is handled. -/
  | passive
  /-- `PASV` has got its transfer socket. -/
  | listening
  /-- `PASV` has attempted the 227 reply, and its socket has not been used since. -/
  | armed
  /-- `NLST` or `RETR` is handled, the first one since. -/
  | transferring
  deriving DecidableEq, Repr

/-- The phase after a record. -/
def Event.next : Event → Phase → Phase
  | .dispatch .pasv _, _ => .passive
  | .dispatch .nlst _, p => if p = .armed then .transferring else .idle
  | .dispatch .retr _, p => if p = .armed then .transferring else .idle
  | .dispatch _ _, p => if p = .armed then .armed else .idle
  | .result r, p => if p = .armed ∧ r = 0 then .armed else .idle
  | .disconnect, _ => .idle
  | .stopped, _ => .idle
  | .listen _ r, p => if p = .passive ∧ r = 0 then .listening else p
  | .write .client _ text _, p => if p = .listening ∧ ascii "227" <+: text then .armed else p
  | _, p => p

/-- The phase after a log. -/
abbrev phaseOf (log : Log) : Phase := Monitor.phase Event.next .idle log

/-- The record is the attempt to send a 150 reply. -/
def Event.announces : Event → Prop
  | .write .client _ text _ => ascii "150" <+: text
  | _ => False

/-- Every 150 reply so far was sent for a transfer. -/
abbrev Announced (log : Log) : Prop :=
  Monitor.Guarded (fun e p => Event.announces e → p = Phase.transferring) Event.next .idle log

/-- The end of a command or of a session, or the start of a command. -/
def Event.isMark : Event → Bool
  | .dispatch _ _ => true
  | .result _ => true
  | .disconnect => true
  | .stopped => true
  | _ => false

/-- A record behind which the socket of an earlier `PASV` is not used any more. -/
def Event.spends : Event → Bool
  | .dispatch c _ => c = .pasv || c = .nlst || c = .retr
  | .result r => r ≠ 0
  | .disconnect => true
  | .stopped => true
  | _ => false

/-! ### Entering the phases -/

/-- What a record does to the phase. -/
inductive Moves (q : Phase) : Event → Phase → Prop
  | keeps {e : Event} (h : e.isMark = false) : Moves q e q
  | passive {args : Option Args} : Moves q (.dispatch .pasv args) .passive
  | listening {t : Int} (h : q = .passive) : Moves q (.listen t 0) .listening
  | arms {fd w : Int} {text : List Byte} (h : q = .listening) (ht : ascii "227" <+: text) :
      Moves q (.write .client fd text w) .armed
  | stays {e : Event} (h : q = .armed) (he : e.spends = false) : Moves q e .armed
  | transfers {c : Command} {args : Option Args} (h : q = .armed) (hc : c = .nlst ∨ c = .retr) :
      Moves q (.dispatch c args) .transferring
  | resets {e : Event} : Moves q e .idle

theorem Event.moves (e : Event) (q : Phase) : Moves q e (e.next q) := by
  have hkeep : ∀ {e : Event} {c : Prop} [Decidable c] {p : Phase}, e.isMark = false →
      (c → Moves q e p) → Moves q e (if c then p else q) := by
    intro e c _ p hm hp
    split
    · next h => exact hp h
    · exact .keeps hm
  have htransfer : ∀ {c : Command} {args : Option Args}, (c = .nlst ∨ c = .retr) →
      Moves q (.dispatch c args) (if q = .armed then .transferring else .idle) := by
    intro c args hc
    split
    · next h => exact .transfers h hc
    · exact .resets
  cases e with
  | dispatch c args =>
    cases c with
    | pasv => exact .passive
    | nlst => exact htransfer (Or.inl rfl)
    | retr => exact htransfer (Or.inr rfl)
    | _ =>
      simp only [Event.next]
      split
      · next h => exact .stays h rfl
      · exact .resets
  | result r =>
    simp only [Event.next]
    split
    · next h => exact .stays h.1 (by simp [Event.spends, h.2])
    · exact .resets
  | disconnect => exact .resets
  | stopped => exact .resets
  | listen t r => exact hkeep rfl fun h => h.2 ▸ .listening h.1
  | write who fd text w =>
    cases who with
    | client => exact hkeep rfl fun h => .arms h.1 h.2
    | _ => exact .keeps rfl
  | _ => exact .keeps rfl

theorem exists_passive (h : phaseOf log = .passive) : ∃ D args E,
    log = D ++ .dispatch .pasv args :: E ∧ ∀ e ∈ D, e.isMark = false := by
  have hnext : ∀ e q, Event.next e q = .passive →
      (∃ args, e = .dispatch .pasv args) ∨ q = .passive ∧ e.isMark = false := by
    intro e q he
    have hm := e.moves q
    rw [he] at hm
    cases hm with
    | keeps hk => exact Or.inr ⟨rfl, hk⟩
    | passive => exact Or.inl ⟨_, rfl⟩
  obtain ⟨D, e, E, rfl, ⟨args, rfl⟩, hD⟩ := Monitor.exists_entry
    (fun e _ => ∃ args, e = .dispatch .pasv args) _ hnext (by decide) h
  exact ⟨D, args, E, rfl, hD⟩

theorem exists_listening (h : phaseOf log = .listening) : ∃ C t old,
    log = C ++ .listen t 0 :: old ∧ phaseOf old = .passive ∧ ∀ e ∈ C, e.isMark = false := by
  have hnext : ∀ e q, Event.next e q = .listening →
      ((∃ t, e = .listen t 0) ∧ q = .passive) ∨ q = .listening ∧ e.isMark = false := by
    intro e q he
    have hm := e.moves q
    rw [he] at hm
    cases hm with
    | keeps hk => exact Or.inr ⟨rfl, hk⟩
    | listening hq => exact Or.inl ⟨⟨_, rfl⟩, hq⟩
  obtain ⟨C, e, old, rfl, ⟨⟨t, rfl⟩, hq⟩, hC⟩ := Monitor.exists_entry
    (fun e q => (∃ t, e = .listen t 0) ∧ q = .passive) _ hnext (by decide) h
  exact ⟨C, t, old, rfl, hq, hC⟩

theorem exists_armed (h : phaseOf log = .armed) : ∃ B fd text w old,
    log = B ++ .write .client fd text w :: old ∧ ascii "227" <+: text ∧
      phaseOf old = .listening ∧ ∀ e ∈ B, e.spends = false := by
  have hnext : ∀ e q, Event.next e q = .armed →
      ((∃ fd text w, e = .write .client fd text w ∧ ascii "227" <+: text) ∧ q = .listening) ∨
        q = .armed ∧ e.spends = false := by
    intro e q he
    have hm := e.moves q
    rw [he] at hm
    cases hm with
    | keeps hk =>
      refine Or.inr ⟨rfl, ?_⟩
      cases e <;> first | rfl | simp [Event.isMark] at hk
    | arms hq ht => exact Or.inl ⟨⟨_, _, _, rfl, ht⟩, hq⟩
    | stays hq hs => exact Or.inr ⟨hq, hs⟩
  obtain ⟨B, e, old, rfl, ⟨⟨fd, text, w, rfl, ht⟩, hq⟩, hB⟩ := Monitor.exists_entry
    (fun e q => (∃ fd text w, e = .write .client fd text w ∧ ascii "227" <+: text) ∧
      q = .listening) _ hnext (by decide) h
  exact ⟨B, fd, text, w, old, rfl, ht, hq, hB⟩

theorem exists_transferring (h : phaseOf log = .transferring) : ∃ A c args old,
    log = A ++ .dispatch c args :: old ∧ (c = .nlst ∨ c = .retr) ∧ phaseOf old = .armed ∧
      ∀ e ∈ A, e.isMark = false := by
  have hnext : ∀ e q, Event.next e q = .transferring →
      ((∃ c args, e = .dispatch c args ∧ (c = .nlst ∨ c = .retr)) ∧ q = .armed) ∨
        q = .transferring ∧ e.isMark = false := by
    intro e q he
    have hm := e.moves q
    rw [he] at hm
    cases hm with
    | keeps hk => exact Or.inr ⟨rfl, hk⟩
    | transfers hq hc => exact Or.inl ⟨⟨_, _, rfl, hc⟩, hq⟩
  obtain ⟨A, e, old, rfl, ⟨⟨c, args, rfl, hc⟩, hq⟩, hA⟩ := Monitor.exists_entry
    (fun e q => (∃ c args, e = .dispatch c args ∧ (c = .nlst ∨ c = .retr)) ∧ q = .armed) _
    hnext (by decide) h
  exact ⟨A, c, args, old, rfl, hc, hq, hA⟩

/-- The log ends within an `NLST` or `RETR`, and before it there was a `PASV` that got
its socket and attempted its reply; between them no command used the socket up. -/
def InTransfer (log : Log) : Prop := ∃ A B C D E c args args' t fd text w,
  log = A ++ .dispatch c args :: (B ++ .write .client fd text w :: (C ++ .listen t 0 ::
    (D ++ .dispatch .pasv args' :: E))) ∧
  (c = .nlst ∨ c = .retr) ∧ ascii "227" <+: text ∧ (∀ e ∈ A, e.isMark = false) ∧
  (∀ e ∈ B, e.spends = false) ∧ (∀ e ∈ C, e.isMark = false) ∧ ∀ e ∈ D, e.isMark = false

/-- **What the last phase says of the log.** -/
theorem inTransfer_of_transferring (h : phaseOf log = .transferring) : InTransfer log := by
  obtain ⟨A, c, args, old, rfl, hc, h, hA⟩ := exists_transferring h
  obtain ⟨B, fd, text, w, old, rfl, ht, h, hB⟩ := exists_armed h
  obtain ⟨C, t, old, rfl, h, hC⟩ := exists_listening h
  obtain ⟨D, args', E, rfl, hD⟩ := exists_passive h
  exact ⟨A, B, C, D, E, c, args, args', t, fd, text, w, rfl, hc, ht, hA, hB, hC, hD⟩

/-! ### Records that announce nothing -/

/-- A completion reply is no announcement. -/
theorem Completion.not_announcing {text : List Byte} (h : Completion text = true) :
    ¬ ascii "150" <+: text := by
  rintro ⟨t, rfl⟩
  have hcode : ascii "150" = [49, 53, 48] := by decide
  rw [hcode] at h
  exact absurd h (by simp [Completion])

/-- Only writes announce. -/
theorem OfKind.not_announces {ks : List Kind} (h : OfKind ks N) (hk : .write ∉ ks) :
    ∀ e ∈ N, ¬ e.announces := by
  intro e he ha
  have hkind := h e he
  cases e <;> first | exact hk hkind | exact ha

/-- What is written to the transfer client is no announcement. -/
theorem listing_not_announces {path : List Byte} {x r : Int} (h : listing path x log r N) :
    ∀ e ∈ N, ¬ e.announces := by
  intro e he ha
  have hl := h e he
  cases e with
  | write who =>
    obtain ⟨rfl, -⟩ := hl
    exact ha
  | _ => exact ha

theorem Sends.not_announces {path : List Byte} {x r : Int} (h : Sends log x path r N) :
    ∀ e ∈ N, ¬ e.announces := by
  intro e he ha
  have hl := h.mem e he
  cases e with
  | write who =>
    obtain ⟨rfl, -⟩ := hl
    exact ha
  | _ => exact ha

namespace Announced

theorem append (h : Announced log) (hN : ∀ e ∈ N, ¬ e.announces) : Announced (N ++ log) :=
  Monitor.Guarded.append h fun e he _ ha => absurd ha (hN e he)

theorem adds {ks : List Kind} {log' : Log} (h : Announced log) (hadds : Adds ks log log')
    (hk : .write ∉ ks) : Announced log' := by
  obtain ⟨N, rfl, hN⟩ := hadds
  exact h.append (hN.not_announces hk)

theorem write {fd w : Int} {text : List Byte} (h : Announced log) (ht : ¬ ascii "150" <+: text) :
    Announced (.write .client fd text w :: log) := ⟨fun ha => absurd ha ht, h⟩

/-- The reply behind some lookups. -/
theorem reply {fd w : Int} {text : List Byte} (h : Announced log) (hL : Lookups N)
    (ht : Completion text = true) : Announced (.write .client fd text w :: (N ++ log)) :=
  (h.append (hL.ofKind.not_announces (by decide))).write (Completion.not_announcing ht)

end Announced

/-! ### Records that keep the phase -/

/-- Calls other than those that set a socket up keep the phase, except for a reply while
`PASV` has its socket. -/
theorem OfKind.next_eq {ks : List Kind} {p : Phase} (h : OfKind ks N)
    (hk : ks ⊆ [.accept, .read, .close, .write, .lookup, .file, .dir]) (hp : p ≠ .listening) :
    ∀ e ∈ N, e.next p = p := by
  intro e he
  have hkind := hk (h e he)
  cases e with
  | write who => cases who <;> simp [Event.next, hp]
  | socket | fcntl | setsockopt | bind | listen | index | request | dispatch | result |
    disconnect | stopped => simp [Event.kind] at hkind
  | _ => rfl

/-- The records of a line, as long as no handler is called. -/
theorem examined_next {sock : Int} {answer : Option (List Byte)} {p : Phase} :
    ∀ e ∈ examined sock answer, e.next p = p := by
  intro e he
  rcases mem_examined he with rfl | ⟨i, rfl, -⟩ <;> rfl

/-! ### The invariant -/

/-- There is no transfer socket that could be accepted on. -/
def Retired (os : Os) (s : St) : Prop :=
  s.data.transferSock = -1 ∨ s.data.transferSock ∉ openFds os.inherited s.log

/-- **The invariant.**  While a client is connected, its transfer socket belongs to a
`PASV` the monitor has seen. -/
structure Serial (os : Os) (s : St) : Prop where
  announced : Announced s.log
  armed : s.data.isConnected = true → Retired os s ∨ phaseOf s.log = .armed

/-- When the handler of a command is called, its transfer socket belongs to a `PASV` the monitor
has seen. -/
def Ready (os : Os) (s : St) : Command → Prop
  | .pasv => phaseOf s.log = .passive
  | .nlst => Retired os s ∨ phaseOf s.log = .transferring
  | .retr => Retired os s ∨ phaseOf s.log = .transferring
  | _ => Retired os s ∨ phaseOf s.log = .armed

/-- No connection is accepted on a descriptor that is not open. -/
def AcceptsOpen (os : Os) : Prop := ∀ log fd, fd ∉ openFds os.inherited log → os.accept log fd = -1

theorem Retired.of_neutral (h : Retired os s) (hN : Neutral N) :
    Retired os ⟨s.data, N ++ s.log⟩ := by
  unfold Retired
  rw [openFds_append_of_neutral hN]
  exact h

/-- The descriptor of a socket that could not be set up is closed. -/
theorem Creates.notMem_openFds {port : UInt16} {r fd : Int} {C : List Event} {inherited : List Int}
    (h : Creates port r fd C) (hr : r ≠ 0) : fd ∉ openFds inherited (C ++ log) := by
  cases h with
  | failed =>
    intro hmem
    simp [mem_openFds_cons, Event.opened, Event.obtained, Event.released] at hmem
  | created => exact absurd rfl hr

/-- A transfer is announced only where the monitor is. -/
theorem Transferring.announced {B : Int → Log → Int → List Event → Prop} {d : ServerData}
    {r0 r x : Int} {T : List Event}
    (hB : ∀ {x log r D}, B x log r D → ∀ e ∈ D, ¬ Event.announces e)
    (hacc : d.transferSock ≠ -1 → 0 ≤ os.accept log d.transferSock → phaseOf log = .transferring)
    (hT : Transferring B d (os.accept log d.transferSock) log r0 r x T) (h : Announced log) :
    Announced (T ++ log) := by
  have haccept : Announced (.accept .transferClient d.transferSock
      (os.accept log d.transferSock) :: log) := h.append (N := [_]) (by simp [Event.announces])
  have hannounce : ∀ {r P}, d.transferSock ≠ -1 → 0 ≤ os.accept log d.transferSock →
      Announces d.clientSock r P → Announced (P ++ .accept .transferClient d.transferSock
        (os.accept log d.transferSock) :: log) := by
    intro r P ht ha hP
    cases hP with
    | refused => exact haccept
    | sent => exact ⟨fun _ => hacc ht ha, haccept⟩
  cases hT with
  | skipped => exact h
  | unconnected hA => exact h.append (hA.ofKind.not_announces (by decide))
  | unannounced ht ha hP =>
    rw [List.append_assoc]
    exact hannounce ht ha hP
  | transferred ht ha hP hD =>
    rw [List.append_assoc, List.append_assoc]
    exact (hannounce ht ha hP).append (hB hD)

theorem Transferred.announced {B : Int → Log → Int → List Event → Prop} {r0 r : Int}
    (hB : ∀ {x log r D}, B x log r D → ∀ e ∈ D, ¬ Event.announces e) (hacc : AcceptsOpen os)
    (hs : Retired os s ∨ phaseOf s.log = .transferring) (hT : Transferred os B r0 s r s')
    (h : Announced s.log) : Announced s'.log := by
  cases hT with
  | @mk retval x w T X Y text hT hX hY ht =>
    have htext : Completion text = true := Completion.of_status (by decide) ht
    -- a socket that can be accepted on is one the monitor has seen
    have hopen : s.data.transferSock ≠ -1 → 0 ≤ os.accept s.log s.data.transferSock →
        phaseOf s.log = .transferring := by
      intro ht ha
      refine hs.resolve_left fun hret => ?_
      have := hacc s.log _ (hret.resolve_left ht)
      omega
    have h1 := hT.announced hB hopen h
    have h2 := h1.append (hX.ofKind.not_announces (by decide))
    exact (h2.append (hY.ofKind.not_announces (by decide))).write (Completion.not_announcing htext)

/-- What looks something up and replies leaves the transfer socket alone. -/
theorem kept_of_lookups {d' : ServerData} {fd w : Int} {text : List Byte}
    (h : Retired os s ∨ phaseOf s.log = .armed) (hL : Lookups N)
    (hd : d'.transferSock = s.data.transferSock) :
    Retired os ⟨d', .write .client fd text w :: (N ++ s.log)⟩ ∨
      phaseOf (.write .client fd text w :: (N ++ s.log)) = .armed := by
  refine h.imp (fun h => ?_) fun h => ?_
  · have hN : Neutral (.write .client fd text w :: N) := hL.neutral.write
    have h1 := h.of_neutral hN
    unfold Retired at h1 ⊢
    rw [hd]
    exact h1
  · have hN : OfKind [.lookup, .write] (.write .client fd text w :: N) :=
      List.forall_mem_cons.mpr ⟨by simp [Event.kind], hL.ofKind.mono (by simp)⟩
    exact Monitor.phase_append h (hN.next_eq (by simp) (by simp))

theorem Ready.of_answers {c : Command} (h : Ready os s c) (hc : c.answers = true) :
    Retired os s ∨ phaseOf s.log = .armed := by
  cases c <;> first | exact h | exact absurd hc Bool.false_ne_true

/-- A handler that only answers. -/
theorem Answered.serial {r : Int} (h : Answered s r s') (ha : Announced s.log)
    (hready : Retired os s ∨ phaseOf s.log = .armed) : Serial os s' := by
  cases h with
  | mk hL ht => exact ⟨ha.reply hL ht, fun _ => kept_of_lookups hready hL rfl⟩

/-- `PASV` has its socket in the end, or the one it got is closed. -/
theorem Passive.serial {r : Int} (h : Passive os s r s') (ha : Announced s.log)
    (hready : phaseOf s.log = .passive) : Serial os s' := by
  cases h with
  | @mk X Y C retval w text hX hY hC ht =>
    have htext : Completion text = true := Completion.of_status (by decide) ht
    have hclosed : Announced (Y ++ (X ++ s.log)) :=
      (ha.append (hX.ofKind.not_announces (by decide))).append (hY.ofKind.not_announces (by decide))
    refine ⟨(hclosed.append (hC.ofKind.not_announces (by decide))).write
      (Completion.not_announcing htext), fun _ => ?_⟩
    by_cases hr : retval = 0
    · subst hr
      right
      obtain ⟨-, h227⟩ := ht.resolve_right fun h => h.1 rfl
      have hphase : phaseOf (Y ++ (X ++ s.log)) = .passive :=
        Monitor.phase_append (Monitor.phase_append hready
          (hX.ofKind.next_eq (by decide) (by decide)))
          (hY.ofKind.next_eq (by decide) (by decide))
      generalize hfd : os.socket (Y ++ (X ++ s.log)) = fd at hC ⊢
      cases hC with
      | failed hr => exact absurd rfl hr
      | created => simp [Event.next, hphase, h227]
    · left
      right
      have hN : Neutral [.write .client s.data.clientSock text w] := Neutral.nil.write
      have hfd : os.socket (Y ++ (X ++ s.log)) ∉ openFds os.inherited (C ++ (Y ++ (X ++ s.log))) :=
        hC.notMem_openFds hr
      rw [← openFds_append_of_neutral hN] at hfd
      exact hfd

theorem Transferred.serial {B : Int → Log → Int → List Event → Prop} {r0 r : Int}
    (hB : ∀ {x log r D}, B x log r D → ∀ e ∈ D, ¬ Event.announces e) (hacc : AcceptsOpen os)
    (hs : Retired os s ∨ phaseOf s.log = .transferring) (hT : Transferred os B r0 s r s')
    (h : Announced s.log) : Serial os s' := by
  refine ⟨hT.announced hB hacc hs h, fun _ => Or.inl (Or.inl ?_)⟩
  cases hT
  rfl

/-- The lookups of `NLST` and `RETR` come before the connection is accepted. -/
theorem ready_of_lookups {L : List Event} (h : Retired os s ∨ phaseOf s.log = .transferring)
    (hL : Lookups L) : Retired os ⟨s.data, L ++ s.log⟩ ∨ phaseOf (L ++ s.log) = .transferring :=
  h.imp (·.of_neutral hL.neutral) fun h =>
    Monitor.phase_append h (hL.ofKind.next_eq (by decide) (by decide))

/-- **A handler keeps the invariant.** -/
theorem Outcome.serial {args : List Byte} {len : ℕ} {c : Command} {r : Int} (hacc : AcceptsOpen os)
    (ho : Outcome os s args len c r s') (ha : Announced s.log) (hready : Ready os s c) :
    Serial os s' := by
  cases ho with
  | answered hc h => exact h.serial ha (hready.of_answers hc)
  | rejected _ h hd =>
    refine ⟨(h.serial ha hready).announced.adds hd.adds (by decide), fun hc => ?_⟩
    cases hd
    exact absurd hc Bool.false_ne_true
  | moved h =>
    cases h with
    | stayed hL ht => exact ⟨ha.reply hL (Completion.of_errorReply ht),
      fun _ => kept_of_lookups hready hL rfl⟩
    | @moved p r d' L text w hp ha' hd ht =>
      have hL : Lookups (L ++ [.realpath p (some r)]) := hd.lookups.append (.cons rfl .nil)
      have hsock : d'.transferSock = s.data.transferSock := by cases hd <;> rfl
      rw [List.append_cons]
      exact ⟨ha.reply hL (Completion.of_prefix (by decide) ht),
        fun _ => kept_of_lookups hready hL hsock⟩
  | sized h => exact h.answered.serial ha hready
  | passive h => exact h.serial ha hready
  | listed hL h =>
    exact h.serial listing_not_announces hacc (ready_of_lookups hready hL.lookups)
      (ha.append (hL.lookups.ofKind.not_announces (by decide)))
  | sent hL h =>
    exact h.serial Sends.not_announces hacc (ready_of_lookups hready hL.lookups)
      (ha.append (hL.lookups.ofKind.not_announces (by decide)))

namespace Serial

/-- Nothing is asked of a server without a client. -/
theorem of_not_connected (ha : Announced s.log) (hn : s.data.isConnected = false) : Serial os s :=
  ⟨ha, fun hc => absurd (hn.symm.trans hc) Bool.false_ne_true⟩

theorem handled {r : Int} (h : Serial os s) (hc : s.data.isConnected = true) (hh : Handled s r s') :
    Serial os s' := by
  refine ⟨h.announced.adds hh.adds (by decide), fun _ => ?_⟩
  cases hh with
  | kept hr =>
    refine (h.armed hc).imp (fun h => ?_) fun h => ?_
    · exact h.of_neutral (N := [_]) (.cons .nil ⟨rfl, rfl⟩)
    · simp [Event.next, h, hr]
  | retired => exact Or.inl (Or.inl rfl)

/-- The records of reading a line keep the phase. -/
theorem lineState (h : Serial os s) (bytes : List Byte) : Serial os (lineState s bytes) := by
  have hnext : ∀ p, ∀ e ∈ Event.index (bytes.length - 2) :: examined s.data.clientSock (some bytes),
      e.next p = p := fun p => List.forall_mem_cons.mpr ⟨rfl, examined_next⟩
  have hneutral : Neutral (.index (bytes.length - 2) :: examined s.data.clientSock (some bytes)) :=
    .cons (Sound.examined_neutral _ _) ⟨rfl, rfl⟩
  refine ⟨h.announced.adds (lineState_adds bytes) (by decide), fun hc => ?_⟩
  exact (h.armed hc).imp (·.of_neutral hneutral) fun h =>
    @Monitor.phase_append _ _ _ _ _ (_ :: _) _ h (hnext _)

/-- **The monitor is in step when a handler is called.** -/
theorem ready (h : Serial os s) (hc : s.data.isConnected = true) (buffer : List Byte) (len : ℕ)
    (name : List Byte) (c : Command) : Ready os (calledState s buffer len name c) c := by
  have hretired : Retired os s → Retired os (calledState s buffer len name c) := fun h =>
    h.of_neutral (N := [_, _]) (.cons (.cons .nil ⟨rfl, rfl⟩) ⟨rfl, rfl⟩)
  have harmed := h.armed hc
  cases c with
  | pasv => rfl
  | nlst | retr => exact harmed.imp hretired fun h => by simp [calledState, Event.next, h]
  | _ => exact harmed.imp hretired fun h => by simp [calledState, Event.next, h]

theorem parsing {buffer : List Byte} {len : ℕ} {r : Int} (hacc : AcceptsOpen os) (h : Serial os s)
    (hc : s.data.isConnected = true) (hp : Parsing os s buffer len r s') : Serial os s' := by
  cases hp with
  | @known name c _ _ _ ho =>
    have hcalled := h.announced.adds (calledState_adds buffer len name c) (by decide)
    exact Outcome.serial hacc ho hcalled (h.ready hc buffer len name c)
  | @unknown text w _ ht =>
    refine ⟨Announced.write ?_ (Completion.not_announcing (Completion.of_errorReply ht)),
      fun _ => ?_⟩
    · exact h.announced.append (N := [_]) (by simp [Event.announces])
    · refine (h.armed hc).imp (fun h => ?_) fun h => ?_
      · exact h.of_neutral (N := [_, _]) (Neutral.write (.cons .nil ⟨rfl, rfl⟩))
      · simp [Event.next, h]

/-- A handler leaves the client connected, or there is nothing to ask any more. -/
theorem handles {r : Int} (h : Serial os s) (hh : Handled s r s') : Serial os s' := by
  by_cases hc : s.data.isConnected = true
  · exact h.handled hc hh
  · refine of_not_connected (h.announced.adds hh.adds (by decide)) ?_
    rw [Bool.not_eq_true] at hc
    cases hh <;> exact hc

/-- **A step keeps the invariant.** -/
theorem step {r : Int} (hacc : AcceptsOpen os) (h : Serial os s) (hi : Sound os s)
    (hs : Step os s r s') : Serial os s' := by
  cases hs with
  | starting hn hs =>
    refine of_not_connected (h.announced.adds hs.adds (by decide)) ?_
    rw [hs.isConnected]
    exact hi.down hn
  | waiting hcreated hn hs =>
    have haccepted := h.announced.adds (@acceptedLog_adds os s) (by decide)
    cases hs with
    | idle => exact of_not_connected haccepted hn
    | stopped _ _ hst =>
      refine of_not_connected (haccepted.adds hst.adds (by decide)) ?_
      cases hst
      rfl
    | homeless _ hd =>
      exact of_not_connected
        (haccepted.append (hd.lookups.ofKind.not_announces (by decide))) (hd.isConnected.trans hn)
    | ungreeted _ hd =>
      exact of_not_connected (haccepted.reply hd.lookups (by decide)) (hd.isConnected.trans hn)
    | connected _ hd =>
      -- a new session has no transfer socket
      refine ⟨haccepted.reply hd.lookups (by decide), fun _ => Or.inl (Or.inl ?_)⟩
      obtain ⟨cwd, cwdLen, rfl⟩ := hd.exists_eq
      exact (hi.waiting hcreated hn).2
  | conversing _ hc hs =>
    cases hs with
    | line _ _ hp hh => exact ((h.lineState _).parsing hacc hc hp).handles hh
    | closed _ hd =>
      refine of_not_connected ?_ ?_
      · exact (h.announced.adds (storedLog_adds _ _ _) (by decide)).adds hd.adds (by decide)
      · cases hd
        rfl
    | ignored =>
      have hneutral := Sound.examined_neutral s.data.clientSock
      refine ⟨h.announced.append ((examined_ofKind _ _).not_announces (by decide)), fun _ => ?_⟩
      exact (h.armed hc).imp (·.of_neutral (hneutral _))
        fun h => Monitor.phase_append h examined_next
    | stopped _ _ _ _ hst =>
      refine of_not_connected ?_ ?_
      · exact (h.announced.append ((examined_ofKind _ _).not_announces (by decide))).adds hst.adds
          (by decide)
      · cases hst
        rfl

end Serial

theorem Reachable.serial (hacc : AcceptsOpen os) (h : Reachable os argv s) : Serial os s := by
  refine h.invariant (I := Serial os) (fun s h0 => ?_)
    fun _ _ hr hi ht => hi.step hacc (Reachable.sound hr) (Reachable.step hr ht)
  obtain ⟨hf, hL⟩ := started_spec h0
  refine .of_not_connected ?_ hf.connected
  have hlog : Announced (s.log ++ []) :=
    Announced.append trivial (hL.ofKind.not_announces (by decide))
  rwa [List.append_nil] at hlog

/-- **One passive socket serves at most one transfer.**  Whatever is in the log after any
number of turns and one more, which may end in any way: a 150 reply in it was sent within
an `NLST` or `RETR`, and before that there was a `PASV` that got its socket and attempted
the 227 reply, with no other `NLST` or `RETR`, no command with a nonzero result, and no
disconnect or stop in between. -/
theorem one_transfer_per_passive (hacc : AcceptsOpen os) (h : Reachable os argv s)
    {new old : Log} {fd w : Int} {text : List Byte}
    (hlog : (serverHandler os s).2.log = new ++ .write .client fd text w :: old)
    (ht : ascii "150" <+: text) : InTransfer old := by
  have hserial := h.serial hacc
  have hannounced : Announced (serverHandler os s).2.log := by
    rcases hrun : serverHandler os s with ⟨_ | r, s'⟩
    · exact hserial.announced.adds (Killing.of_run h.sound.configured hrun).adds (by decide)
    · exact (hserial.step hacc h.sound (Step.of_run h.sound.configured hrun)).announced
  exact inTransfer_of_transferring (Monitor.guarded_iff.mp hannounced new _ old hlog ht)

theorem Host.acceptsOpen (h : Host) : AcceptsOpen h.os := by
  intro log fd hfd
  exact if_neg hfd

/-- A machine on which the client asks for a listing. -/
def listingHost : Host :=
  { nodes := [Host.srv, Host.node ["srv", "a"] .regular [] Host.valid_a],
    reads := [some (ascii "PASV" ++ crlf), some (ascii "NLST" ++ crlf)] }

/-- The log once this is answered. -/
def listingLog : Log :=
  (serverHandler listingHost.os
    (Host.run listingHost.os 3 (Host.start listingHost.os Host.argv))).2.log

/-- The listing is announced behind the `PASV` it belongs to. -/
theorem one_transfer_per_passive_nlst : InTransfer (listingLog.drop 13) := by
  have hlog : listingLog = listingLog.take 12 ++ .write .client 4
      (ascii "150 Here comes the directory listing." ++ crlf) 39 :: listingLog.drop 13 := by
    decide +kernel
  exact one_transfer_per_passive (Host.acceptsOpen _) (Host.reachable_run (by decide +kernel)) hlog
    (by decide)

end VsFtp
