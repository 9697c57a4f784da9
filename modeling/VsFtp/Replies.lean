import VsFtp.Host
import VsFtp.Invariants
import VsFtp.Printing
import VsFtp.Lib.Chronicle

/-!
# The replies to a command

What is transmitted on the control connection while a line is handled.

## Main definitions

* `transmissions` — everything that was written to a descriptor, in order.
* `Replies` — a handler's transmissions: at most one preliminary reply, and one
  completion reply behind it.
* `AnswersOnce` — the turn does this, and ends.
* `PrintsSafely` — the turn prints no working directory with a conversion.

## Main results

* `Outcome.replies` — every handler replies so.
* `exactly_one_completion` — **a line is answered by exactly one completion reply,
  whatever undefined behaviour does, if and only if there is none.**
* `format_kills_reply` — a run in which a command is not answered.
-/

namespace VsFtp

open CString Prog

variable {os : Os} {s s' s1 : St} {argv : Argv} {fd : Int} {log : Log} {N : List Event}

/-! ### Transmissions -/

/-- What a record shows to have been written to a descriptor. -/
def Event.writtenTo (fd : Int) : Event → List (List Byte)
  | .write _ fd' bytes _ => if fd' = fd then [bytes] else []
  | _ => []

/-- Everything that was written to a descriptor, in order. -/
def transmissions (fd : Int) (log : Log) : List (List Byte) := chronicle (Event.writtenTo fd) log

/-- The records write nothing to the descriptor. -/
def Silent (fd : Int) (N : List Event) : Prop := ∀ e ∈ N, e.writtenTo fd = []

theorem transmissions_of_silent (h : Silent fd N) :
    transmissions fd (N ++ log) = transmissions fd log := chronicle_append_of_silent h

theorem transmissions_write {who : Slot} {bytes : List Byte} {w : Int} :
    transmissions fd (.write who fd bytes w :: log) = transmissions fd log ++ [bytes] := by
  simp [transmissions, Event.writtenTo]

theorem Silent.append {N' : List Event} (h : Silent fd N) (h' : Silent fd N') :
    Silent fd (N ++ N') := by
  intro e he
  rcases List.mem_append.mp he with he | he
  · exact h e he
  · exact h' e he

/-- Only writes are transmissions. -/
theorem OfKind.silent {ks : List Kind} (h : OfKind ks N) (hk : .write ∉ ks) : Silent fd N := by
  intro e he
  have hkind := h e he
  cases e <;> first | rfl | exact absurd hkind hk

theorem Lookups.silent (hL : Lookups N) : Silent fd N := hL.ofKind.silent (by decide)

theorem Closes.silent {x : Int} (h : Closes x N) : Silent fd N := h.ofKind.silent (by decide)

theorem Adds.exists_silent {ks : List Kind} {log' : Log} (h : Adds ks log log') (hk : .write ∉ ks)
    (fd : Int) : ∃ N, Silent fd N ∧ log' = N ++ log := by
  obtain ⟨N, hlog, hN⟩ := h
  exact ⟨N, hN.silent hk, hlog⟩

theorem listing_silent {path : List Byte} {x r : Int} (h : listing path x log r N) (hx : x ≠ fd) :
    Silent fd N := by
  intro e he
  have hl := h e he
  cases e with
  | write who fd' bytes w =>
    obtain ⟨-, rfl⟩ := hl
    exact if_neg hx
  | _ => rfl

theorem Sends.silent {path : List Byte} {x r : Int} (h : Sends log x path r N) (hx : x ≠ fd) :
    Silent fd N := by
  intro e he
  have hl := h.mem e he
  cases e with
  | write who fd' bytes w =>
    obtain ⟨-, rfl⟩ := hl
    exact if_neg hx
  | _ => rfl

/-! ### The replies of the handlers -/

/-- From `s` to `s'` one completion reply is transmitted to `fd` as the last thing, and
before it at most one preliminary reply, and that only if `transfer` holds. -/
def Replies (fd : Int) (transfer : Prop) (s s' : St) : Prop :=
  ∃ marks final, transmissions fd s'.log = transmissions fd s.log ++ marks ++ [final] ∧
    Completion final = true ∧
    (marks = [] ∨ transfer ∧ ∃ mark, marks = [mark] ∧ ascii "150" <+: mark)

/-- Silent records before and behind the replies. -/
theorem Replies.of_silent {transfer : Prop} {d d' : ServerData} {N M : List Event}
    (hN : Silent fd N) (hM : Silent fd M)
    (h : Replies fd transfer ⟨d, N ++ s.log⟩ s') : Replies fd transfer s ⟨d', M ++ s'.log⟩ := by
  obtain ⟨marks, final, hlog, hrest⟩ := h
  refine ⟨marks, final, ?_, hrest⟩
  rw [transmissions_of_silent hM, hlog, transmissions_of_silent hN]

/-- One completion reply behind silent records. -/
theorem Replies.of_write {transfer : Prop} {d : ServerData} {who : Slot}
    {text : List Byte} {w : Int}
    (hN : Silent fd N) (ht : Completion text = true) :
    Replies fd transfer s ⟨d, .write who fd text w :: (N ++ s.log)⟩ := by
  refine ⟨[], text, ?_, ht, Or.inl rfl⟩
  rw [transmissions_write, transmissions_of_silent hN, List.append_nil]

theorem Answered.replies {r : Int} {transfer : Prop} (h : Answered s r s') :
    Replies s.data.clientSock transfer s s' := by
  cases h with
  | mk hL ht => exact .of_write hL.silent ht

/-- The announcement of a transfer, and its transmissions. -/
theorem Transferring.transmissions {B : Int → Log → Int → List Event → Prop} {d : ServerData}
    {r0 r t x : Int} {T : List Event} (hB : ∀ {x log r D}, B x log r D → x ≠ fd → Silent fd D)
    (hfd : fd ∈ held log) (hclient : d.clientSock = fd)
    (h : Transferring B d (os.accept log t) log r0 r x T) :
    ∃ marks, VsFtp.transmissions fd (T ++ log) = VsFtp.transmissions fd log ++ marks ∧
      (marks = [] ∨ ∃ mark, marks = [mark] ∧ ascii "150" <+: mark) := by
  have hne : os.accept log t ≠ fd :=
    (accept_ne (held_subset_openFds hfd) (nonneg_of_mem_held hfd)).symm
  -- the announcement behind the record of `accept`
  have hannounce : ∀ {r : Int} {P : List Event}, Announces d.clientSock r P → ∃ marks,
      VsFtp.transmissions fd (P ++ .accept .transferClient d.transferSock (os.accept log t) :: log)
        = VsFtp.transmissions fd log ++ marks ∧
      (marks = [] ∨ ∃ mark, marks = [mark] ∧ ascii "150" <+: mark) := by
    intro r P hP
    have haccept : VsFtp.transmissions fd
        (.accept .transferClient d.transferSock (os.accept log t) :: log) =
        VsFtp.transmissions fd log :=
      transmissions_of_silent (N := [_]) (by simp [Silent, Event.writtenTo])
    cases hP with
    | refused => exact ⟨[], by rw [List.nil_append, haccept, List.append_nil], Or.inl rfl⟩
    | @sent text r ht =>
      rw [hclient]
      exact ⟨[text], by rw [List.singleton_append, transmissions_write, haccept],
        Or.inr ⟨text, rfl, ht⟩⟩
  cases h with
  | skipped => exact ⟨[], by simp, Or.inl rfl⟩
  | unconnected hA =>
    refine ⟨[], ?_, Or.inl rfl⟩
    rw [List.append_nil]
    refine transmissions_of_silent ?_
    cases hA <;> simp [Silent, Event.writtenTo]
  | unannounced _ _ hP =>
    rw [List.append_assoc]
    exact hannounce hP
  | transferred _ _ hP hD =>
    rw [List.append_assoc, List.append_assoc, transmissions_of_silent (hB hD hne)]
    exact hannounce hP

theorem Transferred.replies {B : Int → Log → Int → List Event → Prop} {r0 r : Int} {transfer : Prop}
    (hB : ∀ {x log r D}, B x log r D → x ≠ s.data.clientSock → Silent s.data.clientSock D)
    (hheld : s.data.clientSock ∈ held s.log) (htr : transfer) (h : Transferred os B r0 s r s') :
    Replies s.data.clientSock transfer s s' := by
  cases h with
  | @mk retval x w T X Y text hT hX hY ht =>
    obtain ⟨marks, hmarks, hform⟩ := hT.transmissions hB hheld rfl
    have htext : Completion text = true := Completion.of_status (by decide) ht
    refine ⟨marks, text, ?_, htext, hform.imp_right fun h => ⟨htr, h⟩⟩
    rw [transmissions_write, transmissions_of_silent hY.silent, transmissions_of_silent hX.silent,
      hmarks]

/-- **Every handler sends one completion reply, as the last thing**, and only `NLST` and
`RETR` announce something before. -/
theorem Outcome.replies {args : List Byte} {len : ℕ} {c : Command} {r : Int}
    (hheld : s.data.clientSock ∈ held s.log) (h : Outcome os s args len c r s') :
    Replies s.data.clientSock (c = .nlst ∨ c = .retr) s s' := by
  cases h with
  | answered _ h => exact h.replies
  | @rejected r s1 s' _ h hd =>
    obtain ⟨N, hN, hlog⟩ := hd.adds.exists_silent (by decide) s.data.clientSock
    have h' : Replies s.data.clientSock (Command.user = .nlst ∨ Command.user = .retr) s
        ⟨s'.data, N ++ s1.log⟩ := .of_silent (N := []) (by simp [Silent]) hN h.replies
    rw [← hlog] at h'
    exact h'
  | moved h =>
    cases h with
    | stayed hL ht => exact .of_write hL.silent (Completion.of_errorReply ht)
    | @moved p r d' L text w hp ha hd ht =>
      have hL : Lookups (L ++ [.realpath p (some r)]) := hd.lookups.append (.cons rfl .nil)
      rw [List.append_cons]
      exact .of_write hL.silent (Completion.of_prefix (by decide) ht)
  | sized h => exact h.answered.replies
  | passive h =>
    cases h with
    | @mk X Y C retval w text hX hY hC ht =>
      have htext : Completion text = true := Completion.of_status (by decide) ht
      have hN : Silent s.data.clientSock (C ++ (Y ++ X)) :=
        (hC.ofKind.silent (by decide)).append (hY.silent.append hX.silent)
      have hlog : C ++ (Y ++ (X ++ s.log)) = C ++ (Y ++ X) ++ s.log := by simp
      rw [hlog]
      exact .of_write hN htext
  | @listed r r0 s' lpath L hL h =>
    have hheld' := mem_held_of_neutral hL.lookups.neutral hheld
    have h' : Replies s.data.clientSock (Command.nlst = .nlst ∨ Command.nlst = .retr)
        ⟨s.data, L ++ s.log⟩ s' := h.replies (fun h hx => listing_silent h hx) hheld' (Or.inl rfl)
    exact .of_silent (M := []) hL.lookups.silent (by simp [Silent]) h'
  | @sent r s' out L hL h =>
    have hheld' := mem_held_of_neutral hL.lookups.neutral hheld
    have h' : Replies s.data.clientSock (Command.retr = .nlst ∨ Command.retr = .retr)
        ⟨s.data, L ++ s.log⟩ s' := h.replies (fun h hx => Sends.silent h hx) hheld' (Or.inr rfl)
    exact .of_silent (M := []) hL.lookups.silent (by simp [Silent]) h'

/-! ### A line -/

theorem Replies.imp {P Q : Prop} (h : Replies fd P s s') (hpq : P → Q) : Replies fd Q s s' := by
  obtain ⟨marks, final, hlog, ht, hmarks⟩ := h
  exact ⟨marks, final, hlog, ht, hmarks.imp_right fun h => ⟨hpq h.1, h.2⟩⟩

/-- **A line is answered**, by its handler or because there is none. -/
theorem Parsing.replies {buffer : List Byte} {len : ℕ} {r : Int}
    (hheld : s.data.clientSock ∈ held s.log) (h : Parsing os s buffer len r s') :
    Replies s.data.clientSock
      (∃ name c, commandFind buffer = some (name, c) ∧ (c = .nlst ∨ c = .retr)) s s' := by
  cases h with
  | @known name c r s' hfind ho =>
    have hheld' : s.data.clientSock ∈ held (calledState s buffer len name c).log :=
      mem_held_of_neutral (N := [_, _]) (.cons (.cons .nil ⟨rfl, rfl⟩) ⟨rfl, rfl⟩) hheld
    have hkind : (c = .nlst ∨ c = .retr) →
        ∃ name c, commandFind buffer = some (name, c) ∧ (c = .nlst ∨ c = .retr) :=
      fun hc => ⟨name, c, hfind, hc⟩
    have hreplies := (Outcome.replies (s := calledState s buffer len name c) hheld' ho).imp hkind
    exact .of_silent (N := [_, _]) (M := []) (by simp [Silent, Event.writtenTo])
      (by simp [Silent]) hreplies
  | unknown _ ht =>
    exact .of_write (N := [.request buffer len]) (by simp [Silent, Event.writtenTo])
      (Completion.of_errorReply ht)

/-! ### A turn -/

/-- The turn handles `NLST` or `RETR`. -/
def Transfers (os : Os) (s : St) : Prop := ∃ (c : Command) (args : List Byte) (len : ℕ) (s1 : St),
  Called os s c args len s1 ∧ (c = .nlst ∨ c = .retr)

/-- The turn ends, and it answers the client. -/
def AnswersOnce (os : Os) (s : St) : Prop :=
  ∃ s', Turn os s s' ∧ Replies s.data.clientSock (Transfers os s) s s'

/-- If the turn prints the working directory, there is no conversion in it that lacks
its argument. -/
def PrintsSafely (os : Os) (s : St) : Prop := ∀ c args len s1, Called os s c args len s1 →
  Prints os s1 args len c → (formatText s.data.cwd s.data.cwdLen).isSome = true

theorem PrintsSafely.answersOnce {bytes : List Byte} (hi : Sound os s)
    (hc : s.data.isConnected = true) (hread : received os s = some bytes) (hline : IsLine bytes)
    (hlen : bytes.length < requestLenMax) (hp : PrintsSafely os s) : AnswersOnce os s := by
  have hcreated := hi.created hc
  rcases hrun : serverHandler os s with ⟨_ | r, s'⟩
  · -- the process can only be killed in the handler, printing the directory
    cases Killing.of_run hi.configured hrun with
    | starting h => exact absurd (h.symm.trans hcreated) Bool.false_ne_true
    | waiting _ h => exact absurd (h.symm.trans hc) Bool.false_ne_true
    | conversing _ _ hk =>
      cases hk with
      | overlong _ h =>
        obtain ⟨bytes', hread', hfull, -⟩ := h
        obtain rfl := Option.some.inj (hread.symm.trans hread')
        exact absurd hfull hlen.ne
      | line hread' hline' hk =>
        obtain ⟨name, c, hfind, hprints, hkilled⟩ := hk
        have hsome := hp c _ _ _ (.mk hcreated hc hread' hline' hfind) hprints
        exact absurd (Or.inl hsome) hkilled.1
  · obtain ⟨rfl, r1, s2, hparse, hh⟩ :=
      (Step.of_run hi.configured hrun).of_line hcreated hc hread hline
    refine ⟨s', hrun, ?_⟩
    have hheld : s.data.clientSock ∈ held (lineState s bytes).log :=
      ((hi.client hc).1.of_neutral (Sound.examined_neutral _ (some bytes))).of_neutral
        (N := [_]) (.cons .nil ⟨rfl, rfl⟩) |>.held
    have hkind : (∃ name c, commandFind (lineBuffer bytes) = some (name, c) ∧
        (c = .nlst ∨ c = .retr)) → Transfers os s := fun ⟨name, c, hfind, hkind⟩ =>
      ⟨c, _, _, _, .mk hcreated hc hread hline hfind, hkind⟩
    have hreplies := (Parsing.replies (s := lineState s bytes) hheld hparse).imp hkind
    -- what `HandleConnection` does with the result closes sockets and sends nothing
    obtain ⟨N, hN, hlog⟩ := hh.adds.exists_silent (by decide) s.data.clientSock
    have hexamined : Silent s.data.clientSock
        (.index (bytes.length - 2) :: examined s.data.clientSock (some bytes)) :=
      List.forall_mem_cons.mpr ⟨rfl, (examined_ofKind _ _).silent (by decide)⟩
    have h' : Replies s.data.clientSock (Transfers os s) s ⟨s'.data, N ++ s2.log⟩ :=
      .of_silent hexamined hN hreplies
    rw [← hlog] at h'
    exact h'

/-- The system with other outcomes of undefined behaviour. -/
def Os.surviving (os : Os) (v : Log → Bool) : Os := { os with survives := v }

theorem Called.surviving_iff {v : Log → Bool} {c : Command} {args : List Byte} {len : ℕ} :
    Called (os.surviving v) s c args len s1 ↔ Called os s c args len s1 := by
  constructor <;> rintro ⟨hcreated, hc, hread, hline, hfind⟩ <;>
    exact .mk hcreated hc hread hline hfind

theorem PrintsSafely.surviving {v : Log → Bool} (h : PrintsSafely os s) :
    PrintsSafely (os.surviving v) s := by
  intro c args len s1 hcall hp
  refine h c args len s1 (Called.surviving_iff.mp hcall) ?_
  cases c <;> exact hp

/-- **A line is answered by exactly one completion reply**, the last thing that is
transmitted, and before it by at most one announcement of a transfer, whatever
undefined behaviour does, **if and only if there is none**: no working directory with
a conversion is printed. -/
theorem exactly_one_completion {bytes : List Byte} (h : Reachable os argv s)
    (hc : s.data.isConnected = true) (hread : received os s = some bytes) (hline : IsLine bytes)
    (hlen : bytes.length < requestLenMax) :
    (∀ v, AnswersOnce (os.surviving v) s) ↔ PrintsSafely os s := by
  have hi := h.sound
  constructor
  · intro hanswers c args len s1 hcall hp
    by_contra hnone
    have hhome := h.homed hc
    have hbad : Unprintable (os.surviving fun _ => false) s.data :=
      ⟨by simpa using hnone, hhome.length_eq ▸ hhome.canonical.length_pos,
        hhome.length_eq ▸ hhome.length_lt, fun _ => rfl⟩
    obtain ⟨s', ht, -⟩ := hanswers fun _ => false
    have hp' : Prints (os.surviving fun _ => false) s1 args len c := by cases c <;> exact hp
    exact ((Called.surviving_iff.mpr hcall).dies hbad hp').run_ne _ _ ht
  · intro hp v
    have hi' : Sound (os.surviving v) s :=
      ⟨hi.configured, hi.down, hi.server, hi.waiting, hi.client, hi.transferClient⟩
    exact hp.surviving.answersOnce hi' hc hread hline hlen

/-- A machine on which the client enters the directory `/srv/%s`, and asks where it
is. -/
def formatHost : Host :=
  { nodes := [Host.srv, Host.node ["srv", "%s"] .dir [] (by decide)],
    reads := [some (ascii "CWD %s" ++ crlf), some (ascii "PWD" ++ crlf)],
    survives := false }

/-- Entering the directory is answered once, whatever undefined behaviour does. -/
theorem exactly_one_completion_cwd :
    PrintsSafely formatHost.os (Host.run formatHost.os 2 (Host.start formatHost.os Host.argv)) ∧
      ∀ v, AnswersOnce (formatHost.os.surviving v)
        (Host.run formatHost.os 2 (Host.start formatHost.os Host.argv)) := by
  have hprints : PrintsSafely formatHost.os
      (Host.run formatHost.os 2 (Host.start formatHost.os Host.argv)) :=
    fun _ _ _ _ _ _ => by decide +kernel
  have hread : received formatHost.os
      (Host.run formatHost.os 2 (Host.start formatHost.os Host.argv))
        = some (ascii "CWD %s" ++ crlf) := by decide +kernel
  exact ⟨hprints, (exactly_one_completion (Host.reachable_run (by decide +kernel))
    (by decide +kernel) hread (by decide) (by decide)).mpr hprints⟩

/-- **The next command is not answered**: the process ends while it prints the working
directory. -/
theorem format_kills_reply :
    let s := Host.run formatHost.os 3 (Host.start formatHost.os Host.argv)
    Reachable formatHost.os Host.argv s ∧ s.data.isConnected = true ∧
      received formatHost.os s = some (ascii "PWD" ++ crlf) ∧ ¬ AnswersOnce formatHost.os s := by
  refine ⟨Host.reachable_run (by decide +kernel), by decide +kernel, by decide +kernel, ?_⟩
  rintro ⟨s', ht, -⟩
  have hnone : (serverHandler formatHost.os
      (Host.run formatHost.os 3 (Host.start formatHost.os Host.argv))).1 = none := by
    decide +kernel
  rw [show serverHandler formatHost.os _ = _ from ht] at hnone
  exact absurd hnone (by simp)

end VsFtp
