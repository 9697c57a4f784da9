import VsFtp.Conversation
import VsFtp.Honesty
import VsFtp.Lib.Chronicle
import VsFtp.Lib.Framing

/-!
# What a client reads

The replies arrive as one stream of bytes, which the network may cut anywhere.  A client takes it
for replies by the rule of the protocol: a reply ends with the first line that begins with the code
of the reply and a space.  As every reply is true, it is known what can be in it: the client reads
the replies that were sent, unless a path or an argument with a line feed may be in one of them.

## Main definitions

* `replyComplete` — the rule.
* `delivered`, `arrived` — the replies that were sent, and the bytes that arrive.
* `Unbroken` — no path that was resolved and no argument that was passed on has a line feed, and
  such a path can be used as a format.
* `Answers` — the replies to one line.

## Main results

* `View.tells.isFrame` — a true reply is complete at its end, and not before.
* `replies_understood` — **a client reads the replies that were sent**, however they are cut.
* `request_understood` — **a client keeps in step**: it knows when its command is completed.
-/

namespace VsFtp

open CString Prog Monitor Framing

attribute [local irreducible] serverSendReply helpText

variable {os : Os} {s : St} {argv : Argv} {log : Log}

/-! ### The rule -/

/-- The last line of a text that ends with a line feed, without it. -/
def lastLine (b : List Byte) : List Byte := (b.dropLast.reverse.takeWhile (· ≠ 10)).reverse

/-- A reply is complete: its last line begins with its code and a space. -/
def replyComplete (b : List Byte) : Bool :=
  b.getLast? = some 10 && (b.take 3 ++ [32]).isPrefixOf (lastLine b)

theorem getLast?_of_replyComplete {b : List Byte} (h : replyComplete b = true) :
    b.getLast? = some 10 := by
  simp only [replyComplete, Bool.and_eq_true, decide_eq_true_eq] at h
  exact h.1

/-- The text of a reply of one line. -/
structure IsLineReply (text : List Byte) : Prop where
  unbroken : (10 : Byte) ∉ text
  code : text.take 3 ++ [32] <+: text

instance (text : List Byte) : Decidable (IsLineReply text) :=
  decidable_of_iff ((10 : Byte) ∉ text ∧ text.take 3 ++ [32] <+: text)
    ⟨fun h => ⟨h.1, h.2⟩, fun h => ⟨h.unbroken, h.code⟩⟩

/-- **A reply of one line is a frame.** -/
theorem IsLineReply.isFrame {text : List Byte} (h : IsLineReply text) :
    IsFrame replyComplete (text ++ crlf) := by
  have hsplit : text ++ crlf = (text ++ [13]) ++ [10] := by
    rw [List.append_assoc]
    rfl
  have hunbroken : (10 : Byte) ∉ text ++ [13] := by
    intro h0
    rcases List.mem_append.mp h0 with h0 | h0
    · exact h.unbroken h0
    · exact absurd h0 (by decide)
  rw [hsplit]
  apply IsFrame.of_last (fun _ => getLast?_of_replyComplete) hunbroken
  have hlast : lastLine ((text ++ [13]) ++ [10]) = text ++ [13] := by
    rw [lastLine, List.dropLast_concat, List.takeWhile_eq_self_iff.mpr, List.reverse_reverse]
    intro c hc
    have hc := List.mem_reverse.mp hc
    exact decide_eq_true fun h0 => hunbroken (h0 ▸ hc)
  have hlen : 3 ≤ text.length := by
    have hle := h.code.length_le
    rw [List.length_append, List.length_take, List.length_singleton] at hle
    omega
  have htake : ((text ++ [13]) ++ [10]).take 3 = text.take 3 := by
    rw [List.append_assoc, List.take_append_of_le_length hlen]
  rw [replyComplete, hlast, htake, List.getLast?_concat, Bool.and_eq_true,
    List.isPrefixOf_iff_prefix]
  exact ⟨decide_eq_true rfl, h.code.trans (List.prefix_append _ _)⟩

/-- The code of a text is that of its beginning. -/
theorem IsLineReply.of_append {head tail : List Byte} (h : IsLineReply head)
    (ht : (10 : Byte) ∉ tail) : IsLineReply (head ++ tail) := by
  have hlen : 3 ≤ head.length := by
    have hle := h.code.length_le
    rw [List.length_append, List.length_take, List.length_singleton] at hle
    omega
  constructor
  · intro h0
    exact (List.mem_append.mp h0).elim h.unbroken ht
  · rw [List.take_append_of_le_length hlen]
    exact h.code.trans (List.prefix_append _ _)

/-- The reply of several lines. -/
theorem helpText_isFrame {text : List Byte} (h : helpText = some text) :
    IsFrame replyComplete (text ++ crlf) := by
  have hall : ∀ text ∈ helpText, (text ++ crlf ≠ [] ∧ replyComplete (text ++ crlf) = true) ∧
      ∀ p ∈ (text ++ crlf).inits, p = [] ∨ p = text ++ crlf ∨ replyComplete p = false := by
    decide +kernel
  exact IsFrame.of_inits (hall text h)

/-! ### Texts without a line feed -/

/-- A path that is printed on one line. -/
def Clean (path : List Byte) : Prop :=
  (10 : Byte) ∉ path ∧ (formatText path path.length).isSome = true

instance (path : List Byte) : Decidable (Clean path) := inferInstanceAs (Decidable (_ ∧ _))

/-- No path that `realpath` returns, and no argument of a handler, breaks a line. -/
def Event.unbroken : Event → Prop
  | .realpath _ (some r) => Clean r
  | .dispatch _ (some args) => (10 : Byte) ∉ args.bytes
  | _ => True

instance (e : Event) : Decidable e.unbroken := by
  cases e with
  | realpath path r => cases r <;> simp only [Event.unbroken] <;> infer_instance
  | dispatch c args => cases args <;> simp only [Event.unbroken] <;> infer_instance
  | _ => simp only [Event.unbroken]; infer_instance

/-- **No path and no argument in the log has a line feed.** -/
def Unbroken (log : Log) : Prop := ∀ e ∈ log, e.unbroken

instance : Decidable (Unbroken log) := inferInstanceAs (Decidable (∀ e ∈ log, e.unbroken))

/-- No path and no argument that a view shows has a line feed. -/
structure View.Clean (v : View) : Prop where
  cwd : VsFtp.Clean v.cwd
  resolved : VsFtp.Clean v.resolved
  command : ∀ c args, v.command = some (c, args) → (10 : Byte) ∉ args

theorem View.Clean.told {v : View} (h : v.Clean) (text : List Byte) (w : Int) :
    (v.told text w).Clean := by
  unfold View.told
  split
  · exact ⟨h.resolved, h.resolved, h.command⟩
  split
  · split
    · exact ⟨h.resolved, h.resolved, h.command⟩
    · exact h
  · split
    · exact h
    split
    · exact ⟨h.cwd, h.resolved, h.command⟩
    split
    · exact ⟨h.cwd, h.resolved, h.command⟩
    · exact h
  · exact h

/-- A record adds what it shows. -/
theorem View.Clean.view {v : View} (h : v.Clean) {e : Event} (he : e.unbroken) :
    (e.view v).Clean := by
  cases e with
  | socket fd =>
    show (if v.connected then v else _).Clean
    split_ifs
    · exact h
    · exact ⟨h.resolved, h.resolved, h.command⟩
  | realpath path r =>
    cases r with
    | none => exact h
    | some r => exact ⟨h.cwd, he, h.command⟩
  | stat path st => exact ⟨h.cwd, h.resolved, h.command⟩
  | request buffer len => exact ⟨h.cwd, h.resolved, fun _ _ h0 => absurd h0 (by simp [Event.view])⟩
  | dispatch c args =>
    refine ⟨h.cwd, h.resolved, fun c' args' h0 => ?_⟩
    obtain ⟨rfl, rfl⟩ := Prod.mk.inj (Option.some.inj h0)
    cases args with
    | none => exact List.not_mem_nil
    | some args => exact he
  | write who fd text w =>
    cases who with
    | client => exact h.told text w
    | _ => exact h
  | disconnect => exact ⟨h.cwd, h.resolved, h.command⟩
  | stopped => exact ⟨h.cwd, h.resolved, h.command⟩
  | _ => exact h

theorem View.Clean.append {new old : Log} (h : (viewOf argv old).Clean) (hnew : Unbroken new) :
    (viewOf argv (new ++ old)).Clean := by
  induction new with
  | nil => exact h
  | cons e new ih =>
    have hrest := ih fun a ha => hnew a (List.mem_cons_of_mem e ha)
    exact hrest.view (hnew e List.mem_cons_self)

/-- While `main` starts, nothing is shown but paths. -/
theorem Lookups.view (hL : Lookups log) :
    (viewOf argv log).cwd = [] ∧ (viewOf argv log).command = none := by
  induction log with
  | nil => exact ⟨rfl, rfl⟩
  | cons e log ih =>
    have hold := ih fun a ha => hL a (List.mem_cons_of_mem e ha)
    have he := hL e List.mem_cons_self
    cases e with
    | realpath path r => cases r <;> exact hold
    | stat path st => exact hold
    | _ => exact absurd he Bool.false_ne_true

/-- Once a path was resolved, the last one that was is clean. -/
theorem Unbroken.resolved (h : Unbroken log) {p r : List Byte} (hr : .realpath p (some r) ∈ log)
    (hL : Lookups log) : VsFtp.Clean (viewOf argv log).resolved := by
  induction log with
  | nil => exact absurd hr List.not_mem_nil
  | cons e log ih =>
    have hold := ih fun a ha => h a (List.mem_cons_of_mem e ha)
    have hlookups : Lookups log := fun a ha => hL a (List.mem_cons_of_mem e ha)
    have he := hL e List.mem_cons_self
    cases e with
    | realpath path r' =>
      cases r' with
      | none => exact hold (List.mem_of_ne_of_mem (by simp) hr) hlookups
      | some r' => exact h _ List.mem_cons_self
    | stat path st => exact hold (List.mem_of_ne_of_mem (by simp) hr) hlookups
    | _ => exact absurd he Bool.false_ne_true

/-- **The view of such a log**, as soon as `main` has come to its loop. -/
theorem started_clean (h : Started os argv s) (hlog : Unbroken s.log) :
    (viewOf argv s.log).Clean := by
  obtain ⟨p, hp⟩ := started_resolved h
  obtain ⟨hcwd, hcommand⟩ := @Lookups.view argv s.log (started_spec h).2
  refine ⟨?_, hlog.resolved hp (started_spec h).2, fun c args h0 => ?_⟩
  · rw [hcwd]
    exact (by decide : VsFtp.Clean [])
  · rw [hcommand] at h0
    exact absurd h0 (by simp)

/-! ### True replies -/

theorem commas_unbroken {ip : List Byte} (h : inetPton ip = true) : (10 : Byte) ∉ commas ip := by
  obtain ⟨a, b, c, d, ha, hb, hc, hd, rfl⟩ := exists_octets h
  have hpart : ∀ {part : List Byte}, IsOctet part → (10 : Byte) ∉ part :=
    fun hp h0 => absurd (hp.digits _ h0).1 (by decide)
  unfold commas
  intro h0
  obtain ⟨x, hx, heq⟩ := List.mem_map.mp h0
  split at heq
  · exact absurd heq (by decide)
  subst heq
  simp only [List.mem_append, List.mem_cons] at hx
  rcases hx with hx | hx | hx | hx | hx | hx | hx
  · exact hpart ha hx
  · exact absurd hx (by decide)
  · exact hpart hb hx
  · exact absurd hx (by decide)
  · exact hpart hc hx
  · exact absurd hx (by decide)
  · exact hpart hd hx

theorem decimal_unbroken (n : ℕ) : (10 : Byte) ∉ decimal n :=
  fun h0 => absurd (digit_of_mem_decimal h0).1 (by decide)

theorem cstr_subset (a : List Byte) : cstr a ⊆ a := List.takeWhile_subset _

theorem shownPath_unbroken {root dir : List Byte} (h : (10 : Byte) ∉ dir) :
    (10 : Byte) ∉ shownPath root dir := by
  unfold shownPath
  split
  · decide
  · exact fun h0 => h (List.mem_of_mem_drop h0)

theorem pasvReply_isLineReply {ip : List Byte} (h : inetPton ip = true) (p q : UInt8) :
    IsLineReply (pasvReply (commas ip) p q) := by
  have hstart : IsLineReply (ascii "227 Entering Passive Mode (") := by decide
  have hcomma : (10 : Byte) ∉ ascii "," := by decide
  have hend : (10 : Byte) ∉ ascii ")." := by decide
  exact ((((hstart.of_append (commas_unbroken h)).of_append hcomma).of_append
    (decimal_unbroken _)).of_append hcomma).of_append (decimal_unbroken _) |>.of_append hend

theorem retrReply_isLineReply (isBinary : Bool) {args : List Byte} (h : (10 : Byte) ∉ args) :
    IsLineReply (retrReply isBinary args) := by
  have hstart : IsLineReply (if isBinary then ascii "150 BINARY mode data connection for "
      else ascii "150 ASCII mode data connection for ") := by
    cases isBinary <;> decide
  exact (hstart.of_append h).of_append (by decide)

theorem pwdReply_isLineReply {path : List Byte} (h : (10 : Byte) ∉ path) :
    IsLineReply (ascii "257 \"" ++ path ++ ascii "\"") := by
  have hstart : IsLineReply (ascii "257 \"") := by decide
  exact (hstart.of_append h).of_append (by decide)

/-- **A true reply is complete at its end, and not before**, one case for each command. -/
theorem View.tells.isFrame {root ip text : List Byte} {v : View} (h : v.tells root ip text)
    (hip : inetPton ip = true) (hv : v.Clean) : IsFrame replyComplete (text ++ crlf) := by
  unfold View.tells at h
  split_ifs at h with hconn
  · subst h
    exact IsLineReply.isFrame (by decide)
  split at h
  · subst h
    exact IsLineReply.isFrame (by decide)
  rename_i c args hcmd
  have hargs : (10 : Byte) ∉ args := hv.command c args hcmd
  cases c with
  | help => exact helpText_isFrame h
  | user =>
    obtain rfl := h
    apply IsLineReply.isFrame
    split_ifs <;> decide
  | syst =>
    obtain rfl := h
    exact IsLineReply.isFrame (by decide)
  | pasv =>
    rcases h with rfl | rfl
    · exact (pasvReply_isLineReply hip 156 64).isFrame
    · exact IsLineReply.isFrame (by decide)
  | nlst => rcases h with rfl | rfl | rfl <;> exact IsLineReply.isFrame (by decide)
  | pwd =>
    rcases h with ⟨path, hpath, rfl⟩ | rfl
    · obtain ⟨dir, hdir⟩ := Option.isSome_iff_exists.mp hv.cwd.2
      have hunbroken : (10 : Byte) ∉ dir := by
        intro h0
        rcases mem_formatText hdir h0 with h0 | h0
        · exact hv.cwd.1 h0
        · exact absurd h0.1 (by decide)
      rw [hpath dir hdir]
      exact (pwdReply_isLineReply (shownPath_unbroken hunbroken)).isFrame
    · exact IsLineReply.isFrame (by decide)
  | cwd => rcases h with rfl | rfl <;> exact IsLineReply.isFrame (by decide)
  | retr =>
    rcases h with rfl | rfl | rfl | rfl
    · exact (retrReply_isLineReply _ fun h0 => hargs (cstr_subset args h0)).isFrame
    all_goals exact IsLineReply.isFrame (by decide)
  | size =>
    rcases h with ⟨st, -, rfl⟩ | rfl | rfl
    · have hstart : IsLineReply (ascii "213 ") := by decide
      exact (hstart.of_append (decimal_unbroken _)).isFrame
    all_goals exact IsLineReply.isFrame (by decide)
  | type =>
    obtain rfl := h
    apply IsLineReply.isFrame
    split <;> decide
  | quit =>
    obtain rfl := h
    exact IsLineReply.isFrame (by decide)

/-! ### The stream -/

/-- The reply that a record has sent. -/
def Event.delivered : Event → List (List Byte)
  | .write .client _ sent w => if w = -1 then [] else [sent]
  | _ => []

/-- The bytes of the reply that the system took. -/
def Event.arrived : Event → List Byte
  | .write .client _ sent w => sent.take w.toNat
  | _ => []

/-- The system took all bytes of the reply, or none. -/
def Event.whole : Event → Prop
  | .write .client _ sent w => w = -1 ∨ w = sent.length
  | _ => True

instance (e : Event) : Decidable e.whole := by
  cases e with
  | write who fd sent w => cases who <;> simp only [Event.whole] <;> infer_instance
  | _ => simp only [Event.whole]; infer_instance

theorem Event.arrived_eq {e : Event} (h : e.whole) : e.arrived = e.delivered.flatten := by
  cases e with
  | write who fd sent w =>
    cases who with
    | client =>
      show sent.take w.toNat = (if w = -1 then [] else [sent]).flatten
      rcases h with rfl | rfl
      · rfl
      · rw [if_neg (by omega)]
        simp
    | _ => rfl
  | _ => rfl

theorem chronicle_arrived {new : Log} (h : ∀ e ∈ new, e.whole) :
    chronicle Event.arrived new = (chronicle Event.delivered new).flatten := by
  induction new with
  | nil => rfl
  | cons e new ih =>
    rw [chronicle_cons, chronicle_cons, List.flatten_append,
      ih fun a ha => h a (List.mem_cons_of_mem e ha), Event.arrived_eq (h e List.mem_cons_self)]

/-- Every run starts in `main`. -/
theorem Reachable.exists_started (h : Reachable os argv s) :
    ∃ s0, Started os argv s0 ∧ s0.log <:+ s.log := by
  refine Reach.invariant (I := fun s => ∃ s0, Started os argv s0 ∧ s0.log <:+ s.log) h ?_ ?_
  · intro s h0
    exact ⟨s, h0, List.suffix_rfl⟩
  · rintro s s' hr ⟨s0, h0, hs⟩ ht
    have hturn := serverHandler_suffix (Reachable.sound hr)
    rw [show serverHandler os s = (some 0, s') from ht] at hturn
    exact ⟨s0, h0, hs.trans hturn⟩

/-- Whatever was sent is a reply that the client can read. -/
theorem Reachable.isFrame (h : Reachable os argv s) {new old : Log} {fd w : Int} {sent : List Byte}
    (hlog : (serverHandler os s).2.log = new ++ .write .client fd sent w :: old)
    (hunbroken : Unbroken old) : IsFrame replyComplete sent := by
  obtain ⟨text, rfl, -, htells⟩ := Reachable.honest_of_mem h hlog
  refine htells.isFrame (Reachable.located h).valid ?_
  obtain ⟨s0, h0, hs0⟩ := Reachable.exists_started h
  have hstart := hs0.trans (serverHandler_suffix (Reachable.sound h))
  -- nothing was sent before the loop of `main`
  have hsuffix : s0.log <:+ old := by
    rw [hlog] at hstart
    have hold : .write .client fd (text ++ crlf) w :: old <:+
        new ++ .write .client fd (text ++ crlf) w :: old := List.suffix_append _ _
    rcases List.suffix_or_suffix_of_suffix hstart hold with hle | hle
    · rcases List.suffix_cons_iff.mp hle with heq | hle
      · have hwrite := (started_spec h0).2 (.write .client fd (text ++ crlf) w)
        exact absurd (hwrite (by rw [heq]; exact List.mem_cons_self)) Bool.false_ne_true
      · exact hle
    · have hwrite := (started_spec h0).2 (.write .client fd (text ++ crlf) w)
      exact absurd (hwrite (hle.subset List.mem_cons_self)) Bool.false_ne_true
  obtain ⟨N, rfl⟩ := hsuffix
  have hclean := started_clean h0 fun e he => hunbroken e (List.mem_append_right N he)
  exact hclean.append fun e he => hunbroken e (List.mem_append_left _ he)

/-- The replies of a part of a run are read one by one. -/
theorem Reachable.reads (h : Reachable os argv s) {later new old : Log}
    (hlog : (serverHandler os s).2.log = later ++ (new ++ old)) (hunbroken : Unbroken (new ++ old))
    (hwhole : ∀ e ∈ new, e.whole) {chunks : List (List Byte)}
    (hchunks : chunks.flatten = chronicle Event.arrived new) :
    readChunks replyComplete [] chunks = (chronicle Event.delivered new, []) := by
  rw [readChunks_eq, hchunks, chronicle_arrived hwhole]
  apply read_flatten
  intro sent hmem
  obtain ⟨e, he, hsent⟩ := mem_chronicle.mp hmem
  obtain ⟨new₁, new₂, rfl⟩ := List.append_of_mem he
  cases e with
  | write who fd text w =>
    cases who with
    | client =>
      have hsent : sent ∈ if w = -1 then [] else [text] := hsent
      split_ifs at hsent
      · exact absurd hsent List.not_mem_nil
      obtain rfl := List.mem_singleton.mp hsent
      have hsplit : (serverHandler os s).2.log =
          (later ++ new₁) ++ .write .client fd sent w :: (new₂ ++ old) := by
        rw [hlog]
        simp
      refine Reachable.isFrame h hsplit fun a ha => hunbroken a ?_
      rw [List.append_assoc, List.cons_append]
      exact List.mem_append_right new₁ (List.mem_cons_of_mem _ ha)
    | _ => exact absurd hsent List.not_mem_nil
  | _ => exact absurd hsent List.not_mem_nil

/-- **A client reads the replies that were sent.**  Take any part of a run, also of one that ends
with a call of `VSFTPServerHandler` that fails, in which each reply was taken as a whole or not at
all, and let its bytes arrive in any chunks: by the rule of the protocol the client reads exactly
the replies, one after the other, and nothing is left over, if no path and no argument up to there
breaks a line. -/
theorem replies_understood (h : Reachable os argv s) {later new old : Log}
    (hlog : (serverHandler os s).2.log = later ++ (new ++ old)) (hunbroken : Unbroken (new ++ old))
    (hwhole : ∀ e ∈ new, e.whole) {chunks : List (List Byte)}
    (hchunks : chunks.flatten = chronicle Event.arrived new) :
    readChunks replyComplete [] chunks = (chronicle Event.delivered new, []) :=
  Reachable.reads h hlog hunbroken hwhole hchunks

/-- The replies to the session above, which arrive byte by byte. -/
theorem replies_understood_asking :
    readChunks replyComplete [] ((chronicle Event.arrived askingLog).map fun c => [c]) =
      (chronicle Event.delivered askingLog, []) :=
  @replies_understood askingHost.os askingState Host.argv askingState_reachable [] askingLog []
    (List.append_nil _).symm (by decide +kernel) (by decide +kernel) _ (by decide +kernel)

/-! ### One request -/

/-- The replies to a line: perhaps one that announces a transfer, and then one that completes. -/
def Answers (replies : List (List Byte)) : Prop :=
  ∃ announced final, replies = announced ++ [final] ∧ announced.length ≤ 1 ∧
    (∀ r ∈ announced, Completion r = false) ∧ Completion final = true

/-- The replies that were sent since the line, in each phase. -/
def Talk.replied (p : Talk) (replies : List (List Byte)) : Prop :=
  match p with
  | .greeting => False
  | .asked => replies = []
  | .handling _ => replies = []
  | .announced _ => replies.length = 1 ∧ ∀ r ∈ replies, Completion r = false
  | _ => Answers replies

/-- The system took all of a reply. -/
def Event.taken : Event → Prop
  | .write .client _ sent w => w = sent.length
  | _ => True

instance (e : Event) : Decidable e.taken := by
  cases e with
  | write who fd sent w => cases who <;> simp only [Event.taken] <;> infer_instance
  | _ => simp only [Event.taken]; infer_instance

theorem Event.taken.whole {e : Event} (h : e.taken) : e.whole := by
  cases e with
  | write who => cases who <;> first | exact Or.inr h | trivial
  | _ => trivial

/-- A reply that is taken comes behind those before it. -/
theorem Talk.replied.said {p : Talk} {replies : List (List Byte)} (h : p.replied replies)
    {text : List Byte} (hg : p.says text) :
    (p.said text text.length).replied (replies ++ [text]) := by
  have hsent : ¬ (text.length : Int) = -1 := by omega
  cases p with
  | asked =>
    obtain rfl : replies = [] := h
    exact ⟨[], text, rfl, by decide, by simp, Completion.of_errorReply hg⟩
  | handling c =>
    obtain rfl : replies = [] := h
    show (if Completion text then Talk.answered (some c) text
      else if (text.length : Int) = -1 then .handling c else .announced c).replied _
    by_cases hc : Completion text = true
    · rw [if_pos hc]
      exact ⟨[], text, rfl, by decide, by simp, hc⟩
    · rw [if_neg hc, if_neg hsent]
      exact ⟨rfl, by simpa using hc⟩
  | announced c => exact ⟨replies, text, rfl, h.1.le, h.2, hg⟩
  | greeting => exact h.elim
  | _ => exact hg.elim

/-- A record adds the reply that it sends. -/
theorem Talk.replied.record {p : Talk} {replies : List (List Byte)} (h : p.replied replies)
    {e : Event} (ho : e.opens = false) (hg : e.permitted p) (ht : e.taken) :
    (e.talk p).replied (replies ++ e.delivered) := by
  cases e with
  | request => exact Bool.noConfusion ho
  | dispatch c args =>
    obtain rfl : p = .asked := hg
    obtain rfl : replies = [] := h
    rfl
  | accept who fd r =>
    cases who with
    | server => exact Bool.noConfusion ho
    | _ => exact (List.append_nil replies).symm ▸ h
  | write who fd text w =>
    cases who with
    | client =>
      obtain rfl : w = text.length := ht
      have hsent : ¬ (text.length : Int) = -1 := by omega
      rw [Event.delivered, if_neg hsent]
      exact h.said hg
    | _ => exact (List.append_nil replies).symm ▸ h
  | result r =>
    rw [show (Event.result r).delivered = [] from rfl, List.append_nil]
    rcases hg with rfl | ⟨c, text, rfl⟩ <;> exact h
  | listen fd r =>
    rw [show (Event.listen fd r).delivered = [] from rfl, List.append_nil]
    have hg : p = .down ∨ p = .handling .pasv := hg
    rcases hg with rfl | rfl
    · show (if Talk.down = .down ∧ r = 0 then Talk.closed else .down).replied replies
      split <;> exact h
    · exact h
  | disconnect =>
    rw [show Event.disconnect.delivered = [] from rfl, List.append_nil]
    rcases hg with rfl | rfl <;> exact h
  | stopped =>
    rw [show Event.stopped.delivered = [] from rfl, List.append_nil]
    rcases hg with rfl | rfl <;> exact h
  | _ => exact (List.append_nil replies).symm ▸ h

/-- **All the records since the line** add the replies that they send. -/
theorem Talk.replied.passes {p q : Talk} {mid : Log} (h : p.replied []) (hmid : Talks p mid q)
    (ho : ∀ e ∈ mid, e.opens = false) (ht : ∀ e ∈ mid, e.taken) :
    q.replied (chronicle Event.delivered mid) := by
  induction mid generalizing q with
  | nil =>
    obtain ⟨-, rfl⟩ := hmid
    exact h
  | cons e mid ih =>
    obtain ⟨⟨hg, hguarded⟩, rfl⟩ := hmid
    have hold := ih ⟨hguarded, rfl⟩ (fun a ha => ho a (List.mem_cons_of_mem e ha))
      fun a ha => ht a (List.mem_cons_of_mem e ha)
    exact hold.record (ho e List.mem_cons_self) hg (ht e List.mem_cons_self)

/-- **A client keeps in step**: it sends a line, and reads replies until one of them completes.
Take any line in a run, and what came since, if no other line was read and no other client
accepted, the call of `VSFTPServerHandler` returned zero, and the system took the replies.  However
their bytes arrive, the client reads at most one reply that announces a transfer and then one that
completes the command; it has not read any other reply and there is nothing left to read. -/
theorem request_understood (h : Reachable os argv s) {mid old : Log} {buffer : List Byte}
    {len : ℕ} (hlog : (serverHandler os s).2.log = mid ++ .request buffer len :: old)
    (hmid : ∀ e ∈ mid, e.opens = false) (hturn : (serverHandler os s).1 = some 0)
    (hunbroken : Unbroken (serverHandler os s).2.log) (htaken : ∀ e ∈ mid, e.taken)
    {chunks : List (List Byte)} (hchunks : chunks.flatten = chronicle Event.arrived mid) :
    ∃ replies, Answers replies ∧ readChunks replyComplete [] chunks = (replies, []) := by
  refine ⟨chronicle Event.delivered mid, ?_, ?_⟩
  · have hsound := Reachable.sound h
    obtain ⟨r, s', hrun⟩ : ∃ r s', serverHandler os s = (some r, s') := ⟨_, _, Prod.ext hturn rfl⟩
    rw [hrun] at hlog hturn
    obtain ⟨q, hq, hend⟩ := (Step.of_run hsound.configured hrun).talks hsound
    have htalks := hq.passes (Reachable.talks h)
    rw [hlog] at htalks
    obtain ⟨hguarded, hphase⟩ := htalks
    -- from the line on, the phase tells which replies were sent
    have hpass : Talks .asked mid q :=
      ⟨(guarded_append.mp hguarded).1, by rw [← hphase, phase_of_append]; rfl⟩
    have hreplied := Talk.replied.passes (p := .asked) rfl hpass hmid htaken
    rw [hend (Option.some.inj hturn), Talk.between] at hreplied
    split at hreplied
    · exact hreplied
    · split at hreplied <;> exact hreplied
  · have hsplit : (serverHandler os s).2.log = [] ++ (mid ++ .request buffer len :: old) := hlog
    rw [hlog] at hunbroken
    exact Reachable.reads h hsplit hunbroken (fun e he => (htaken e he).whole) hchunks

/-- For the listing it reads two replies. -/
theorem request_understood_nlst : ∃ replies, Answers replies ∧
    readChunks replyComplete [] [chronicle Event.arrived (listingLog.take 15)] = (replies, []) := by
  have hlog : listingLog = listingLog.take 15 ++
      .request (ascii "NLST" ++ [0, 10, 0]) 4 :: listingLog.drop 16 := by decide +kernel
  exact request_understood (Host.reachable_run (by decide +kernel)) hlog (by decide +kernel)
    (by decide +kernel) (by decide +kernel) (by decide +kernel) (List.append_nil _)

end VsFtp
