import VsFtp.Host
import VsFtp.Sessions

/-!
# The conversation with a client

Which calls the server makes depends on how far the conversation with its client has got: it
greets a client it has accepted, reads a line only when the last one is answered, and moves data
only for a transfer that it has announced.  The conversation is a monitor of the log, and every
run of the server keeps to it.

## Main definitions

* `Talk` — the phases of a conversation.
* `Event.talk`, `Event.permitted` — what a record does to the phase, and the phases in which it
  may come.
* `Talk.says` — the replies that may be sent in a phase.
* `Talk.between` — the phase between two calls of the handler.

## Main results

* `Step.talks`, `Killing.talks` — one call of the handler keeps to the protocol.
* `conversation_in_order` — **every run keeps to the protocol**, whatever ends it.
* `answered_once` — **every request is answered exactly once** before anything else is read.
-/

namespace VsFtp

open CString Prog Monitor

attribute [local irreducible] serverSendReply helpText

variable {os : Os} {s s' s1 s2 : St} {argv : Argv} {log : Log} {r : Int}

/-! ### The protocol -/

/-- How far the conversation with a client has got. -/
inductive Talk
  /-- The server does not listen. -/
  | down
  /-- The server listens, and there is no client. -/
  | closed
  /-- A client is accepted. -/
  | greeting
  /-- The client is greeted, and every line of it is answered. -/
  | ready
  /-- A line is parsed. -/
  | asked
  /-- The handler of its command is called. -/
  | handling (c : Command)
  /-- The transfer of this command is announced. -/
  | announced (c : Command)
  /-- The command, if it is a known one, is answered with this text. -/
  | answered (c : Option Command) (text : List Byte)
  /-- The handler of the command has turned the client away. -/
  | refused
  deriving DecidableEq, Repr

/-- The commands with a data connection. -/
def Command.transfers (c : Command) : Bool := c = .nlst || c = .retr

/-- The phase after a reply. -/
def Talk.said (p : Talk) (text : List Byte) (w : Int) : Talk :=
  match p with
  | .greeting => if w = -1 then .greeting else .ready
  | .asked => .answered none text
  | .handling c =>
      if Completion text then .answered (some c) text
      else if w = -1 then .handling c else .announced c
  | .announced c => .answered (some c) text
  | p => p

/-- The replies that may be sent in a phase. -/
def Talk.says (p : Talk) (text : List Byte) : Prop :=
  match p with
  | .greeting => text = VsFtp.greeting
  | .asked => ErrorReply text = true
  | .handling c => Completion text = true ∨ c.transfers = true ∧ ascii "150" <+: text
  | .announced _ => Completion text = true
  | _ => False

/-- The phase after a record. -/
def Event.talk (e : Event) (p : Talk) : Talk :=
  match e with
  | .listen _ r => if p = .down ∧ r = 0 then .closed else p
  | .accept .server _ fd => if fd < 0 then p else .greeting
  | .request _ _ => .asked
  | .dispatch c _ => .handling c
  | .write .client _ text w => p.said text w
  | .result _ => if p = .refused then .closed else .ready
  | .disconnect => if p = .ready then .closed else .refused
  | .stopped => .down
  | _ => p

/-- The phases in which sockets may be closed. -/
def Talk.closes (p : Talk) : Prop :=
  match p with
  | .greeting => False
  | .asked => False
  | .answered _ _ => False
  | _ => True

/-- The phases in which the calls may come that do not move the conversation on. -/
def Kind.permitted (k : Kind) (p : Talk) : Prop :=
  match k with
  | .setup => p = .down ∨ p = .handling .pasv
  | .read => p = .ready
  | .close => p.closes
  | .lookup => p = .down ∨ p = .greeting ∨ ∃ c, p = .handling c
  | .file => p = .announced .retr
  | .dir => p = .announced .nlst
  | _ => True

/-- The phases in which a record may come. -/
def Event.permitted (e : Event) (p : Talk) : Prop :=
  match e with
  | .accept .server _ _ => p = .closed
  | .accept .transferClient _ _ => ∃ c, c.transfers = true ∧ p = .handling c
  | .accept _ _ _ => False
  | .write .client _ text _ => p.says text
  | .write .transferClient _ _ _ => ∃ c, c.transfers = true ∧ p = .announced c
  | .write _ _ _ _ => False
  | .index _ => p = .ready
  | .request _ _ => p = .ready
  | .dispatch _ _ => p = .asked
  | .result _ => p = .refused ∨ ∃ c text, p = .answered c text
  | .disconnect => p = .ready ∨ p = .answered (some .user) refusal
  | .stopped => p = .closed ∨ p = .ready
  | e => e.kind.permitted p

/-- Some records keep to the protocol. -/
abbrev Talks (p : Talk) (N : List Event) (q : Talk) : Prop :=
  Passes Event.permitted Event.talk p N q

/-- A log goes on within the protocol. -/
abbrev TalksOn (p : Talk) (log : Log) (q : Talk) (log' : Log) : Prop :=
  Leads Event.permitted Event.talk p log q log'

/-- The phase between two calls of the handler. -/
def Talk.between (s : St) : Talk :=
  if s.data.isConnected then .ready
  else if s.data.isServerSocketCreated then .closed else .down

theorem Talk.between_ready (h : s.data.isConnected = true) : Talk.between s = .ready := if_pos h

theorem Talk.between_closed (h : s.data.isConnected = false)
    (hc : s.data.isServerSocketCreated = true) : Talk.between s = .closed := by
  rw [Talk.between, h, hc]
  rfl

theorem Talk.between_down (h : s.data.isConnected = false)
    (hc : s.data.isServerSocketCreated = false) : Talk.between s = .down := by
  rw [Talk.between, h, hc]
  rfl

/-! ### Records that keep the phase -/

/-- The kinds of calls that do not move the conversation on. -/
def Kind.isPlain (k : Kind) : Bool :=
  k = .read || k = .close || k = .lookup || k = .file || k = .dir

theorem Event.permitted_of_isPlain {e : Event} {p : Talk} (h : e.kind.isPlain = true)
    (hp : e.kind.permitted p) : e.permitted p ∧ e.talk p = p := by
  cases e <;> first | exact ⟨hp, rfl⟩ | exact absurd h Bool.false_ne_true

/-- Plain calls in a phase that permits them. -/
theorem OfKind.talks {k : Kind} {N : List Event} {p : Talk} (h : OfKind [k] N)
    (hk : k.isPlain = true) (hp : k.permitted p) : Talks p N p := by
  refine .of_keeps fun e he => ?_
  obtain rfl := List.mem_singleton.mp (h e he)
  exact Event.permitted_of_isPlain hk hp

theorem Lookups.talks {L : List Event} {p : Talk} (hL : Lookups L)
    (hp : Kind.permitted .lookup p) : Talks p L p := hL.ofKind.talks rfl hp

theorem Closes.talks {fd : Int} {X : List Event} {p : Talk} (h : Closes fd X)
    (hp : Kind.permitted .close p) : Talks p X p := h.ofKind.talks rfl hp

/-- A call that sets up a socket that does not listen yet. -/
theorem Event.permitted_of_isSetup {e : Event} {p : Talk} (h : e.isSetup = true)
    (hp : Kind.permitted .setup p) : e.permitted p ∧ e.talk p = p := by
  cases e with
  | fcntl => exact ⟨hp, rfl⟩
  | setsockopt => exact ⟨hp, rfl⟩
  | bind => exact ⟨hp, rfl⟩
  | listen fd r => exact ⟨hp, if_neg fun h0 => of_decide_eq_true h h0.2⟩
  | _ => exact absurd h Bool.false_ne_true

/-- Creating a socket: the server listens once it has one, and `PASV` goes on. -/
theorem Creates.talks {port : UInt16} {fd : Int} {C : List Event} {p : Talk}
    (h : Creates port r fd C) (hp : Kind.permitted .setup p) :
    Talks p C (if p = .down ∧ r = 0 then .closed else p) := by
  have hclose : p.closes := by
    rcases hp with rfl | rfl <;> trivial
  cases h with
  | failed hr hN =>
    rw [if_neg fun h => hr h.2]
    refine .of_keeps fun e he => ?_
    simp only [List.mem_cons, List.mem_append, List.not_mem_nil, or_false] at he
    rcases he with rfl | rfl | he | rfl
    · exact ⟨hclose, rfl⟩
    · exact ⟨hclose, rfl⟩
    · exact Event.permitted_of_isSetup (hN e he) hp
    · exact ⟨hp, rfl⟩
  | @created fd =>
    have hdone : Talks p [.bind fd port 0, .setsockopt fd 0, .fcntl fd 0, .socket fd] p := by
      refine .of_keeps fun e he => ?_
      simp only [List.mem_cons, List.not_mem_nil, or_false] at he
      rcases he with rfl | rfl | rfl | rfl <;> exact ⟨hp, rfl⟩
    exact hdone.cons hp rfl

theorem listing_talks {path : List Byte} {x : Int} {D : List Event}
    (h : listing path x log r D) : Talks (.announced .nlst) D (.announced .nlst) := by
  refine .of_keeps fun e he => ?_
  have hl := h e he
  cases e with
  | opendir => exact ⟨rfl, rfl⟩
  | readdir => exact ⟨rfl, rfl⟩
  | closedir => exact ⟨rfl, rfl⟩
  | write =>
    obtain ⟨rfl, -⟩ := hl
    exact ⟨⟨_, rfl, rfl⟩, rfl⟩
  | _ => exact hl.elim

theorem Sends.talks {path : List Byte} {x : Int} {D : List Event}
    (h : Sends log x path r D) : Talks (.announced .retr) D (.announced .retr) := by
  refine .of_keeps fun e he => ?_
  have hl := h.mem e he
  cases e with
  | access => exact ⟨rfl, rfl⟩
  | openFile => exact ⟨rfl, rfl⟩
  | fstat => exact ⟨rfl, rfl⟩
  | readFile => exact ⟨rfl, rfl⟩
  | closeFile => exact ⟨rfl, rfl⟩
  | write =>
    obtain ⟨rfl, -⟩ := hl
    exact ⟨⟨_, rfl, rfl⟩, rfl⟩
  | _ => exact hl.elim

/-- The records of reading a line. -/
theorem examined_talks (sock : Int) (answer : Option (List Byte)) :
    Talks .ready (examined sock answer) .ready := by
  refine .of_keeps fun e he => ?_
  rcases mem_examined he with rfl | ⟨i, rfl, -⟩ <;> exact ⟨rfl, rfl⟩

/-! ### The end of a session -/

/-- A client hangs up, or is turned away. -/
theorem Disconnects.talks {p q : Talk} (h : Disconnects s s')
    (hp : p = .ready ∧ q = .closed ∨ p = .answered (some .user) refusal ∧ q = .refused) :
    TalksOn p s.log q s'.log := by
  have hmark : TalksOn p s.log q (.disconnect :: s.log) := by
    rcases hp with ⟨rfl, rfl⟩ | ⟨rfl, rfl⟩
    · exact Leads.refl.cons (Or.inl rfl) rfl
    · exact Leads.refl.cons (Or.inr rfl) rfl
  have hclose : q.closes := by
    rcases hp with ⟨-, rfl⟩ | ⟨-, rfl⟩ <;> trivial
  cases h with
  | mk hX hY hZ =>
    exact ((hmark.append (hX.talks hclose)).append (hY.talks hclose)).append (hZ.talks hclose)

theorem Stops.talks {p : Talk} (h : Stops s s') (hp : p = .closed ∨ p = .ready) :
    TalksOn p s.log .down s'.log := by
  have hclose : Talk.down.closes := trivial
  cases h with
  | mk hX hY hZ hW =>
    have hmark : TalksOn p s.log .down (.stopped :: s.log) := Leads.refl.cons hp rfl
    have h1 := ((hmark.append (hX.talks hclose)).append (hY.talks hclose)).append (hZ.talks hclose)
    exact h1.append (hW.ofKind.talks rfl hclose)

/-! ### The handlers -/

/-- A completion reply answers the command, wherever its handler has got. -/
theorem TalksOn.answer {p q : Talk} {log' : Log} {fd w : Int} {text : List Byte} {c : Command}
    (h : TalksOn p log q log') (hq : q = .handling c ∨ q = .announced c)
    (ht : Completion text = true) :
    TalksOn p log (.answered (some c) text) (.write .client fd text w :: log') := by
  rcases hq with rfl | rfl
  · exact h.cons (Or.inl ht) (if_pos ht)
  · exact h.cons ht rfl

theorem Answered.talks {c : Command} (h : Answered s r s') :
    ∃ text, TalksOn (.handling c) s.log (.answered (some c) text) s'.log := by
  cases h with
  | mk hL ht =>
    have hlookup : Kind.permitted .lookup (.handling c) := Or.inr (Or.inr ⟨c, rfl⟩)
    exact ⟨_, TalksOn.answer (Leads.mk (hL.talks hlookup)) (Or.inl rfl) ht⟩

/-- **A transfer is announced, or nothing is moved.** -/
theorem Transferring.talks {B : Int → Log → Int → List Event → Prop} {d : ServerData} {a r0 x : Int}
    {T : List Event} {c : Command} (hc : c.transfers = true)
    (hB : ∀ {x log r D}, B x log r D → Talks (.announced c) D (.announced c))
    (h : Transferring B d a log r0 r x T) :
    ∃ q, (q = .handling c ∨ q = .announced c) ∧ Talks (.handling c) T q := by
  have haccept : Talks (.handling c) [.accept .transferClient d.transferSock a] (.handling c) :=
    Passes.nil.cons ⟨c, hc, rfl⟩ rfl
  cases h with
  | skipped => exact ⟨_, Or.inl rfl, .nil⟩
  | unconnected hA =>
    refine ⟨_, Or.inl rfl, ?_⟩
    cases hA with
    | absent => exact .nil
    | refused => exact haccept
  | unannounced _ _ hP hr =>
    refine ⟨_, Or.inl rfl, Passes.append ?_ haccept⟩
    cases hP with
    | refused => exact .nil
    | @sent text w ht =>
      -- the reply was not sent
      have hw : w = -1 := by
        by_contra hw
        exact hr (if_neg hw)
      have hn : ¬ Completion text = true := fun h => Completion.not_announcing h ht
      exact Passes.nil.cons (Or.inr ⟨hc, ht⟩) ((if_neg hn).trans (if_pos hw))
  | @transferred _ P _ _ _ hP hD =>
    refine ⟨_, Or.inr rfl, (hB hD).append (Passes.append ?_ haccept)⟩
    generalize h0 : (0 : Int) = r at hP
    cases hP with
    | refused => exact absurd h0 (by decide)
    | @sent text w ht =>
      have hw : w ≠ -1 := by
        rintro rfl
        exact absurd h0 (by decide)
      have hn : ¬ Completion text = true := fun h => Completion.not_announcing h ht
      exact Passes.nil.cons (Or.inr ⟨hc, ht⟩) ((if_neg hn).trans (if_neg hw))

/-- The reply at the end of a transfer. -/
theorem completion_of_transfer {text : List Byte} {retval : Int}
    (h : retval = 0 ∧ ascii "226" <+: text ∨ retval ≠ 0 ∧ ErrorReply text = true) :
    Completion text = true := Completion.of_status (by decide) h

theorem Transferred.talks {B : Int → Log → Int → List Event → Prop} {r0 : Int} {c : Command}
    (hc : c.transfers = true)
    (hB : ∀ {x log r D}, B x log r D → Talks (.announced c) D (.announced c))
    (h : Transferred os B r0 s r s') :
    ∃ text, TalksOn (.handling c) s.log (.answered (some c) text) s'.log := by
  cases h with
  | mk hT hX hY ht =>
    obtain ⟨q, hq, hT⟩ := hT.talks hc hB
    have hclose : q.closes := by
      rcases hq with rfl | rfl <;> trivial
    have h1 : TalksOn (.handling c) s.log q _ := (Leads.mk hT).append (hX.talks hclose)
    exact ⟨_, TalksOn.answer (h1.append (hY.talks hclose)) hq (completion_of_transfer ht)⟩

/-- Where the conversation is when `VSFTPCommandsParse` returns. -/
inductive Parsed (s : St) : Talk → Prop
  | answered (c : Option Command) (text : List Byte) (h : s.data.isConnected = true) :
      Parsed s (.answered c text)
  | refused (h : s.data.isConnected = false) : Parsed s .refused

/-- **A handler answers its command**, and the client stays connected unless it is turned away. -/
theorem Outcome.talks {args : List Byte} {len : ℕ} {c : Command} (hcon : s.data.isConnected = true)
    (h : Outcome os s args len c r s') : ∃ q,
      TalksOn (.handling c) s.log q s'.log ∧ Parsed s' q := by
  have hanswered : ∀ {c : Command} {r : Int} {s' : St}, Answered s r s' →
      ∃ q, TalksOn (.handling c) s.log q s'.log ∧ Parsed s' q := by
    intro c r s' h
    obtain ⟨text, htalks⟩ := h.talks (c := c)
    refine ⟨_, htalks, .answered _ _ ?_⟩
    cases h with
    | mk => exact hcon
  have hlookup : ∀ {c : Command} {L : List Event}, Lookups L →
      TalksOn (.handling c) s.log (.handling c) (L ++ s.log) :=
    fun hL => Leads.refl.append (hL.talks (Or.inr (Or.inr ⟨_, rfl⟩)))
  cases h with
  | answered _ h => exact hanswered h
  | @rejected _ s1 _ _ h hd ht =>
    obtain ⟨w, hw⟩ := ht
    have hcomplete : Completion refusal = true := by decide
    have hreply : TalksOn (.handling .user) s.log (.answered (some .user) refusal) s1.log := by
      rw [hw]
      exact TalksOn.answer Leads.refl (Or.inl rfl) hcomplete
    refine ⟨_, hreply.trans (hd.talks (Or.inr ⟨rfl, rfl⟩)), .refused ?_⟩
    cases hd with
    | mk => rfl
  | moved h =>
    cases h with
    | stayed hL ht =>
      exact ⟨_, TalksOn.answer (hlookup hL) (Or.inl rfl) (Completion.of_errorReply ht),
        .answered _ _ hcon⟩
    | @moved p r _ L text _ _ _ hd ht =>
      have hL : Lookups (L ++ [.realpath p (some r)]) := hd.lookups.append (.cons rfl .nil)
      have hcomplete := Completion.of_prefix (by decide) ht
      refine ⟨_, ?_, .answered (some .cwd) text (hd.isConnected.trans hcon)⟩
      rw [List.append_cons]
      exact TalksOn.answer (hlookup hL) (Or.inl rfl) hcomplete
  | sized h => exact hanswered h.answered
  | passive h =>
    cases h with
    | mk hX hY hC ht =>
      have hclose : (Talk.handling .pasv).closes := trivial
      have h1 : TalksOn (.handling .pasv) s.log (.handling .pasv) _ :=
        Leads.mk (hX.talks hclose)
      have hC := hC.talks (Or.inr rfl)
      rw [if_neg fun h => Talk.noConfusion h.1] at hC
      have h2 := (h1.append (hY.talks hclose)).append hC
      exact ⟨_, TalksOn.answer h2 (Or.inl rfl) (Completion.of_status (by decide) ht),
        .answered _ _ hcon⟩
  | listed hL h =>
    obtain ⟨text, htalks⟩ := h.talks rfl listing_talks
    refine ⟨_, (hlookup hL.lookups).trans htalks, .answered _ _ ?_⟩
    cases h with
    | mk => exact hcon
  | sent hL h =>
    obtain ⟨text, htalks⟩ := h.talks rfl Sends.talks
    refine ⟨_, (hlookup hL.lookups).trans htalks, .answered _ _ ?_⟩
    cases h with
    | mk => exact hcon

/-! ### A call of the handler -/

theorem calledState_talks (buffer : List Byte) (len : ℕ) (name : List Byte) (c : Command) :
    TalksOn .ready s.log (.handling c) (calledState s buffer len name c).log := by
  have h1 : TalksOn .ready s.log .asked (.request buffer len :: s.log) := Leads.refl.record _ rfl
  exact h1.record _ rfl

/-- **A line is answered.** -/
theorem Parsing.talks {buffer : List Byte} {len : ℕ} (hcon : s.data.isConnected = true)
    (h : Parsing os s buffer len r s') : ∃ q, TalksOn .ready s.log q s'.log ∧ Parsed s' q := by
  cases h with
  | known _ ho =>
    obtain ⟨q, hq, hparsed⟩ := ho.talks (by exact hcon)
    exact ⟨q, (calledState_talks _ _ _ _).trans hq, hparsed⟩
  | unknown _ ht =>
    have h1 : TalksOn .ready s.log .asked (.request buffer len :: s.log) := Leads.refl.cons rfl rfl
    exact ⟨_, h1.cons ht rfl, .answered _ _ hcon⟩

/-- Sockets may be closed between two calls of the handler. -/
theorem Talk.closes_between (s : St) : (Talk.between s).closes := by
  unfold Talk.between
  split
  · trivial
  · split <;> trivial

theorem Handled.talks {p : Talk} (hc : s.data.isServerSocketCreated = true) (hp : Parsed s p)
    (h : Handled s r s') : TalksOn p s.log (.between s') s'.log := by
  have hmark : TalksOn p s.log (.between s) (.result r :: s.log) := by
    cases hp with
    | answered c text hcon =>
      rw [Talk.between_ready hcon]
      exact Leads.refl.cons (Or.inr ⟨c, text, rfl⟩) rfl
    | refused hcon =>
      rw [Talk.between_closed hcon hc]
      exact Leads.refl.cons (Or.inl rfl) rfl
  cases h with
  | kept => exact hmark
  | retired _ hX hY =>
    have hclose := Talk.closes_between s
    exact (hmark.append (hX.talks hclose)).append (hY.talks hclose)

theorem lineState_talks (bytes : List Byte) :
    TalksOn .ready s.log .ready (lineState s bytes).log :=
  (Leads.mk (examined_talks _ _)).cons rfl rfl

/-- The records of reading, as far as the NUL behind what was read. -/
theorem storedLog_talks (answer : Option (List Byte)) :
    TalksOn .ready s.log .ready (storedLog s.data.clientSock answer s.log) := by
  have h1 : TalksOn .ready s.log .ready (.read s.data.clientSock requestLenMax answer :: s.log) :=
    Leads.refl.record _ rfl
  exact h1.record _ rfl

/-- Reading a line leaves the server listening. -/
theorem Parsing.isServerSocketCreated {buffer : List Byte} {len : ℕ}
    (h : Parsing os s buffer len r s') :
    s'.data.isServerSocketCreated = s.data.isServerSocketCreated := by
  cases h with
  | known _ ho => exact ho.session.1
  | unknown => rfl

theorem Conversing.talks (hc : s.data.isServerSocketCreated = true)
    (hcon : s.data.isConnected = true) (h : Conversing os s r s') :
    TalksOn .ready s.log (.between s') s'.log := by
  have hexamined : ∀ answer,
      TalksOn .ready s.log .ready (examinedLog s.data.clientSock answer s.log) :=
    fun answer => Leads.mk (examined_talks _ _)
  cases h with
  | line _ _ hp hh =>
    obtain ⟨q, hq, hparsed⟩ := hp.talks (by exact hcon)
    have hcreated := hp.isServerSocketCreated.trans hc
    exact ((lineState_talks _).trans hq).trans (hh.talks hcreated hparsed)
  | closed _ hd =>
    have hend : Talk.between s' = .closed := by
      cases hd with
      | mk => exact Talk.between_closed rfl hc
    rw [hend]
    exact (storedLog_talks _).trans (hd.talks (Or.inl ⟨rfl, rfl⟩))
  | ignored =>
    rw [Talk.between_ready (by exact hcon)]
    exact hexamined _
  | stopped _ _ _ _ hst =>
    have h1 := (hexamined _).trans (hst.talks (Or.inr rfl))
    cases hst with
    | mk => exact h1

/-- A client that is accepted is being greeted. -/
theorem acceptedLog_talks (ha : 0 ≤ os.accept s.log s.data.serverSock) :
    TalksOn .closed s.log .greeting (acceptedLog os s) :=
  Leads.refl.cons rfl (if_neg (by omega))

theorem acceptedLog_talks_idle (ha : os.accept s.log s.data.serverSock < 0) :
    TalksOn .closed s.log .closed (acceptedLog os s) := Leads.refl.cons rfl (if_pos ha)

theorem Waiting.talks (hc : s.data.isServerSocketCreated = true)
    (hcon : s.data.isConnected = false) (h : Waiting os s r s') :
    ∃ q, TalksOn .closed s.log q s'.log ∧ (r = 0 → q = .between s') := by
  have hentered : ∀ {d : ServerData} {L : List Event} {r : Int},
      0 ≤ os.accept s.log s.data.serverSock →
      Entering os (acceptedLog os s) s.data.rootPath (acceptedData os s) r d L →
      TalksOn .closed s.log .greeting (L ++ acceptedLog os s) :=
    fun ha hd => (acceptedLog_talks ha).append (hd.lookups.talks (Or.inr (Or.inl rfl)))
  cases h with
  | idle ha => exact ⟨.closed, acceptedLog_talks_idle ha,
    fun _ => (Talk.between_closed hcon hc).symm⟩
  | stopped ha _ hst =>
    have h1 := (acceptedLog_talks_idle ha).trans (hst.talks (Or.inl rfl))
    cases hst with
    | mk => exact ⟨.down, h1, fun _ => rfl⟩
  | homeless ha hd hr => exact ⟨.greeting, hentered ha hd, fun h0 => absurd h0 hr⟩
  | ungreeted ha hd =>
    exact ⟨.greeting, (hentered ha hd).cons rfl rfl, fun h0 => absurd h0 (by decide)⟩
  | connected ha hd _ hne => exact ⟨.ready, (hentered ha hd).cons rfl (if_neg hne), fun _ => rfl⟩

theorem Starting.talks (hcon : s.data.isConnected = false) (h : Starting os s r s') :
    ∃ q, TalksOn .down s.log q s'.log ∧ (r = 0 → q = .between s') := by
  have hentered : ∀ {L}, Lookups L → TalksOn .down s.log .down (L ++ s.log) :=
    fun hL => Leads.mk (hL.talks (Or.inl rfl))
  cases h with
  | failed hd hr => exact ⟨_, hentered hd.lookups, fun h0 => absurd h0 hr⟩
  | uncreated hd hC hr =>
    exact ⟨_, (hentered hd.lookups).append (hC.talks (Or.inl rfl)), fun h0 => absurd h0 hr⟩
  | started hd hC =>
    refine ⟨_, (hentered hd.lookups).append (hC.talks (Or.inl rfl)), fun _ => ?_⟩
    rw [Talk.between_closed (hd.isConnected.trans hcon) rfl]
    rfl

/-- **A call of the handler keeps to the protocol.** -/
theorem Step.talks (hi : Sound os s) (h : Step os s r s') :
    ∃ q, TalksOn (.between s) s.log q s'.log ∧ (r = 0 → q = .between s') := by
  cases h with
  | starting hn hs =>
    rw [Talk.between_down (hi.down hn) hn]
    exact hs.talks (hi.down hn)
  | waiting hc hcon hs =>
    rw [Talk.between_closed hcon hc]
    exact hs.talks hc hcon
  | conversing hc hcon hs =>
    rw [Talk.between_ready hcon]
    exact ⟨_, hs.talks hc hcon, fun _ => rfl⟩

theorem Killed.talks {p : Talk} (h : Killed os s s') (hp : Kind.permitted .lookup p) :
    TalksOn p s.log p s'.log := by
  obtain ⟨-, L, hL, rfl⟩ := h
  exact .mk (hL.talks hp)

/-- **A call in which the process is killed** keeps to the protocol. -/
theorem Killing.talks (hi : Sound os s) (h : Killing os s s') :
    ∃ q, TalksOn (.between s) s.log q s'.log := by
  cases h with
  | starting hn hk =>
    rw [Talk.between_down (hi.down hn) hn]
    have h1 := Killed.talks hk (p := .down) (Or.inl rfl)
    exact ⟨_, h1⟩
  | waiting hc hcon ha hk =>
    rw [Talk.between_closed hcon hc]
    exact ⟨_, (acceptedLog_talks ha).trans (Killed.talks hk (Or.inr (Or.inl rfl)))⟩
  | conversing _ hcon hk =>
    rw [Talk.between_ready hcon]
    cases hk with
    | overlong => exact ⟨.ready, storedLog_talks _⟩
    | line _ _ hp =>
      obtain ⟨name, c, -, -, hk⟩ := hp
      exact ⟨_, ((lineState_talks _).trans (calledState_talks _ _ _ _)).trans
        (hk.talks (Or.inr (Or.inr ⟨c, rfl⟩)))⟩

/-! ### Runs -/

/-- Between two calls of the handler the conversation is where the record says. -/
theorem Reachable.talks (h : Reachable os argv s) : Talks .down s.log (.between s) := by
  refine h.invariant (I := fun s => Talks .down s.log (.between s)) ?_ ?_
  · intro s h0
    obtain ⟨hfresh, hL⟩ := started_spec h0
    rw [Talk.between_down hfresh.connected hfresh.created]
    exact hL.talks (Or.inl rfl)
  · intro s s' hr htalks ht
    obtain ⟨q, hq, h0⟩ := (Reachable.step hr ht).talks (Reachable.sound hr)
    rw [← h0 rfl]
    exact hq.passes htalks

/-- **Every run keeps to the protocol**: behind any number of turns and one more call of the
handler, which may return anything or be killed, every record of the log came in a phase that
permits it.  In particular a client is accepted only when the server listens and there is none; a
line is read only when the client is greeted and its last line answered; the server says nothing on
the control connection but the greeting and the replies to the line it has read; files are read,
directories listed and data sent only for a transfer whose 150 reply was sent and that is not
completed; and the session ends only between two lines, or behind the 530 reply to `USER`. -/
theorem conversation_in_order (h : Reachable os argv s) :
    Guarded Event.permitted Event.talk .down (serverHandler os s).2.log := by
  have htalks := Reachable.talks h
  have hsound := Reachable.sound h
  rcases hrun : serverHandler os s with ⟨_ | r, s'⟩
  · obtain ⟨q, hq⟩ := (Killing.of_run hsound.configured hrun).talks hsound
    exact (hq.passes htalks).guarded
  · obtain ⟨q, hq, -⟩ := (Step.of_run hsound.configured hrun).talks hsound
    exact (hq.passes htalks).guarded

/-- A listing keeps to the protocol. -/
theorem conversation_in_order_nlst :
    Guarded Event.permitted Event.talk .down listingLog :=
  conversation_in_order (Host.reachable_run (by decide +kernel))

/-- A completion reply on the control connection. -/
def Event.completes : Event → Bool
  | .write .client _ text _ => Completion text
  | _ => false

/-- A line is handed to `VSFTPCommandsParse`, or a client is accepted. -/
def Event.opens : Event → Bool
  | .request _ _ => true
  | .accept .server _ _ => true
  | _ => false

/-- The completion replies that are still to come. -/
def Talk.due : Talk → ℕ
  | .asked => 1
  | .handling _ => 1
  | .announced _ => 1
  | _ => 0

/-- A completion reply takes itself off, and nothing else does. -/
theorem Event.due_eq {e : Event} {p : Talk} (hp : p ≠ .greeting) (ho : e.opens = false)
    (hg : e.permitted p) : e.talk p ≠ .greeting ∧
      p.due = (e.talk p).due + (if e.completes then 1 else 0) := by
  cases e with
  | request => exact Bool.noConfusion ho
  | dispatch =>
    obtain rfl : p = .asked := hg
    exact ⟨Talk.noConfusion, rfl⟩
  | accept who =>
    cases who with
    | server => exact Bool.noConfusion ho
    | _ => exact ⟨hp, rfl⟩
  | write who fd text w =>
    cases who with
    | client =>
      cases p with
      | asked =>
        have hc : Completion text = true := Completion.of_errorReply hg
        exact ⟨Talk.noConfusion, by simp [Event.talk, Talk.said, Talk.due, Event.completes, hc]⟩
      | handling c =>
        by_cases hc : Completion text = true
        · simp [Event.talk, Talk.said, Talk.due, Event.completes, hc]
        · by_cases hw : w = -1 <;>
            simp [Event.talk, Talk.said, Talk.due, Event.completes, hc, hw]
      | announced c =>
        have hc : Completion text = true := hg
        exact ⟨Talk.noConfusion, by simp [Event.talk, Talk.said, Talk.due, Event.completes, hc]⟩
      | greeting => exact absurd rfl hp
      | _ => exact hg.elim
    | _ => exact ⟨hp, rfl⟩
  | listen fd r =>
    have hg : p = .down ∨ p = .handling .pasv := hg
    rcases hg with rfl | rfl
    · by_cases hr : r = 0 <;> simp [Event.talk, Talk.due, Event.completes, hr]
    · exact ⟨Talk.noConfusion, rfl⟩
  | result =>
    rcases hg with rfl | ⟨c, text, rfl⟩ <;> exact ⟨by simp [Event.talk], rfl⟩
  | disconnect =>
    rcases hg with rfl | rfl <;> exact ⟨by simp [Event.talk], rfl⟩
  | stopped =>
    rcases hg with rfl | rfl <;> exact ⟨Talk.noConfusion, rfl⟩
  | _ => exact ⟨hp, rfl⟩

/-- **Every request is answered exactly once**: take any log that is left behind by a number of
turns and one more call of the handler, any line in it, and what came since, if no other line was
read and no other client accepted.  There is at most one completion reply in it, and exactly one if
the call returned zero; that includes a line that ended the session. -/
theorem answered_once (h : Reachable os argv s) {mid old : Log} {buffer : List Byte} {len : ℕ}
    (hlog : (serverHandler os s).2.log = mid ++ .request buffer len :: old)
    (hmid : ∀ e ∈ mid, e.opens = false) :
    mid.countP Event.completes ≤ 1 ∧
      ((serverHandler os s).1 = some 0 → mid.countP Event.completes = 1) := by
  have hcount : ∀ {q : Talk}, Talks .down (mid ++ .request buffer len :: old) q →
      1 = q.due + mid.countP Event.completes := by
    intro q hq
    obtain ⟨hguarded, rfl⟩ := hq
    -- from the line on, one reply is due
    have hpass : Talks .asked mid (phase Event.talk .down (mid ++ .request buffer len :: old)) :=
      ⟨(guarded_append.mp hguarded).1, by rw [phase_of_append]; rfl⟩
    have hstep : ∀ (e : Event) (p : Talk), p ≠ .greeting → e.opens = false → e.permitted p →
        e.talk p ≠ .greeting ∧ p.due = (e.talk p).due + (if e.completes then 1 else 0) :=
      fun _ _ => Event.due_eq
    exact (hpass.count_eq hstep Talk.noConfusion hmid).2
  have htalks := Reachable.talks h
  have hsound := Reachable.sound h
  rcases hrun : serverHandler os s with ⟨_ | r, s'⟩ <;> rw [hrun] at hlog
  · obtain ⟨q, hq⟩ := (Killing.of_run hsound.configured hrun).talks hsound
    have hle := hcount (hlog ▸ hq.passes htalks)
    exact ⟨by omega, fun h0 => absurd h0 (by simp)⟩
  · obtain ⟨q, hq, h0⟩ := (Step.of_run hsound.configured hrun).talks hsound
    have hle := hcount (hlog ▸ hq.passes htalks)
    refine ⟨by omega, fun hr => ?_⟩
    rw [h0 (Option.some.inj hr)] at hle
    have hdue : (Talk.between s').due = 0 := by
      unfold Talk.between
      split
      · rfl
      · split <;> rfl
    omega

/-- Behind the line of the listing there is one completion reply. -/
theorem answered_once_nlst : (listingLog.take 15).countP Event.completes ≤ 1 ∧
    ((serverHandler listingHost.os (Host.run listingHost.os 3
      (Host.start listingHost.os Host.argv))).1 = some 0 →
        (listingLog.take 15).countP Event.completes = 1) := by
  have hlog : listingLog = listingLog.take 15 ++
      .request (ascii "NLST" ++ [0, 10, 0]) 4 :: listingLog.drop 16 := by decide +kernel
  exact answered_once (Host.reachable_run (by decide +kernel)) hlog
    (by decide +kernel)

end VsFtp
