import VsFtp.Host
import VsFtp.Invariants
import VsFtp.Lib.Chronicle

/-!
# From read results to calls of handlers

`HandleConnection` looks at each result of `read` by itself: what is longer than two
bytes and ends in CRLF is one line, whatever else it contains, and anything else is
nothing.  Nothing is kept from one read to the next.

## Main definitions

* `asLine` — the line in a read result.
* `handlerCall` — the call of a handler that a line leads to.
* `reads`, `requests`, `executed` — the read results, the lines that were handed to the
  parser and the calls of handlers, in order.
* `InBounds` — the request buffer is indexed inside, and the arguments of a handler lie
  in the request.

## Main results

* `handleConnection_inBounds_iff` — **the request buffer is used inside its bounds
  exactly if the read does not fill it.**
* `one_command_per_read` — **the commands that are executed are those of the read
  results that are lines, in order.**
* `full_read_overruns`, `split_line_is_lost` — a read that fills the buffer, and a
  command that arrives in two reads.
-/

namespace VsFtp

open CString Prog

variable {os : Os} {s s' : St} {argv : Argv} {bytes : List Byte} {N : List Event}

/-! ### Lines -/

/-- The line in what was read, if it is one: everything before the CRLF at its end. -/
def asLine (bytes : List Byte) : Option (List Byte) :=
  if IsLine bytes then some (bytes.take (bytes.length - 2)) else none

theorem IsLine.eq_append (h : IsLine bytes) : bytes.take (bytes.length - 2) ++ crlf = bytes := by
  have hdrop := List.take_append_drop (bytes.length - 2) bytes
  rwa [h.2] at hdrop

theorem IsLine.of_append {line : List Byte} (h : line ≠ []) : IsLine (line ++ crlf) := by
  have hpos := List.length_pos_of_ne_nil h
  have hlen : (line ++ crlf).length = line.length + 2 := by simp [crlf]
  refine ⟨by omega, ?_⟩
  rw [hlen, Nat.add_sub_cancel, List.drop_left']
  rfl

theorem asLine_append {line : List Byte} (h : line ≠ []) : asLine (line ++ crlf) = some line := by
  have hlen : (line ++ crlf).length = line.length + 2 := by simp [crlf]
  rw [asLine, if_pos (.of_append h), hlen, Nat.add_sub_cancel, List.take_left']
  rfl

/-- The call of a handler that a line leads to, if there is a handler. -/
def handlerCall (line : List Byte) : Option (Command × Option Args) :=
  (commandFind (lineBuffer (line ++ crlf))).map fun entry =>
    (entry.2, lineArgs (lineBuffer (line ++ crlf)) line.length entry.1)

/-- The request buffer holds the line, and a NUL behind it. -/
theorem lineBuffer_spec (h : IsLine bytes) : ∃ rest,
    lineBuffer bytes = bytes.take (bytes.length - 2) ++ 0 :: rest := by
  obtain ⟨t, ht⟩ := exists_requestBuffer bytes
  have hlen := h.1
  refine ⟨(bytes ++ t).drop (bytes.length - 2 + 1), ?_⟩
  rw [lineBuffer, ht, overwrite, List.take_append_of_le_length (by omega)]
  simp

theorem take_lineBuffer (h : IsLine bytes) :
    (lineBuffer bytes).take (bytes.length - 2) = bytes.take (bytes.length - 2) := by
  obtain ⟨rest, hrest⟩ := lineBuffer_spec h
  have hlen := h.1
  rw [hrest, List.take_left']
  rw [List.length_take]
  omega

/-! ### The marks of a call -/

/-- The marks that are left by handing a line to the parser. -/
def lineMarks (bytes : List Byte) : List Event :=
  (match commandFind (lineBuffer bytes) with
    | some (name, c) => [.dispatch c (lineArgs (lineBuffer bytes) (bytes.length - 2) name)]
    | none => []) ++ [.request (lineBuffer bytes) (bytes.length - 2), .index (bytes.length - 2)]

/-- The marks that are left by handling what was read. -/
def readMarks (answer : Option (List Byte)) : List Event :=
  (if IsLine (answer.getD []) then lineMarks (answer.getD []) else [])

/-- The kinds of records that do not mark the handling of a line. -/
abbrev Unmarked (N : List Event) : Prop :=
  OfKind [.setup, .accept, .close, .write, .lookup, .file, .dir, .result, .session] N

theorem readMarks_of_not_line {answer : Option (List Byte)} (h : ¬ IsLine (answer.getD [])) :
    readMarks answer = [] := if_neg h

theorem calledState_log {name : List Byte} {c : Command} (hline : IsLine bytes)
    (hfind : commandFind (lineBuffer bytes) = some (name, c)) :
    (calledState (lineState s bytes) (lineBuffer bytes) (bytes.length - 2) name c).log =
      readMarks (some bytes) ++ examinedLog s.data.clientSock (some bytes) s.log := by
  have hmarks : readMarks (some bytes) = lineMarks bytes := if_pos hline
  rw [hmarks, lineMarks, hfind]
  rfl

/-- **What a call of `HandleConnection` that returns leaves in the log**: the records of
reading, the marks for what was read, and other records behind them. -/
theorem Conversing.exists_unmarked {r : Int} (h : Conversing os s r s') : ∃ N, Unmarked N ∧
    s'.log = N ++ (readMarks (received os s) ++
      examinedLog s.data.clientSock (received os s) s.log) := by
  have hadds : ∀ {log : Log} {ks : List Kind}, Adds ks log s'.log →
      ks ⊆ [.setup, .accept, .close, .write, .lookup, .file, .dir, .result, .session] →
      ∃ N, Unmarked N ∧ s'.log = N ++ log := by
    rintro log ks ⟨N, hlog, hN⟩ hks
    exact ⟨N, hN.mono hks, hlog⟩
  cases h with
  | @line bytes r s2 s' hread hline hp hh =>
    rw [hread]
    have hhandled := hh.adds
    cases hp with
    | @known name c _ _ hfind ho =>
      have hlog := calledState_log (s := s) hline hfind
      have hcall := ho.adds
      rw [hlog] at hcall
      exact hadds ((hcall.mono (List.subset_append_left _ [.result, .close])).trans
        (hhandled.mono (List.subset_append_right _ _))) (by cases c <;> decide)
    | @unknown text w hfind =>
      have hmarks : readMarks (some bytes) = lineMarks bytes := if_pos hline
      rw [hmarks, lineMarks, hfind]
      have hreply : Adds [.write, .result, .close] _ s'.log :=
        (Adds.cons .refl (by simp [Event.kind])).trans (hhandled.mono (by simp))
      exact hadds hreply (by decide)
  | closed hread hd =>
    rw [hread, readMarks_of_not_line (by decide)]
    exact hadds hd.adds (by decide)
  | ignored hread _ hline =>
    rw [hread, readMarks_of_not_line hline]
    exact ⟨[], by simp [OfKind], rfl⟩
  | stopped hread _ hline _ hst =>
    rw [hread, readMarks_of_not_line hline]
    exact hadds hst.adds (by decide)

/-! ### Bounds -/

/-- The arguments are a slice of the request, from behind the command's name up to the
NUL that ends the request inside the buffer. -/
def InRequest (buffer : List Byte) (len : ℕ) (c : Command) (args : Args) : Prop :=
  ∃ name, (name, c) ∈ commands ∧ name.length + 1 ≤ len ∧ args.offset = name.length + 1 ∧
    args.len = len - name.length - 1 ∧ args.offset + args.len < requestLenMax ∧
    args.bytes = (buffer.drop args.offset).take args.len ∧
    buffer[args.offset + args.len]? = some 0

/-- The request buffer is only indexed inside, and the arguments of a handler lie in the
request. -/
structure InBounds (N : List Event) : Prop where
  indices : ∀ i, .index i ∈ N → i < requestLenMax
  arguments : ∀ c args, .dispatch c (some args) ∈ N →
    ∃ buffer len, .request buffer len ∈ N ∧ InRequest buffer len c args

theorem InBounds.of_unmarked {M : List Event} (h : InBounds M) (hN : Unmarked N) :
    InBounds (N ++ M) := by
  constructor
  · intro i hi
    rcases List.mem_append.mp hi with hi | hi
    · exact absurd (hN _ hi) (by simp [Event.kind])
    · exact h.indices i hi
  · intro c args hd
    rcases List.mem_append.mp hd with hd | hd
    · exact absurd (hN _ hd) (by simp [Event.kind])
    · obtain ⟨buffer, len, hr, hin⟩ := h.arguments c args hd
      exact ⟨buffer, len, List.mem_append_right _ hr, hin⟩

/-- The arguments that the parser passes on lie in the request. -/
theorem lineArgs_inRequest {name : List Byte} {c : Command} {args : Args} (h : IsLine bytes)
    (hlen : bytes.length < requestLenMax) (hfind : commandFind (lineBuffer bytes) = some (name, c))
    (hargs : lineArgs (lineBuffer bytes) (bytes.length - 2) name = some args) :
    InRequest (lineBuffer bytes) (bytes.length - 2) c args := by
  have hmax : requestLenMax < 2 ^ 64 := by decide
  have hmem : (name, c) ∈ commands := List.mem_of_find?_eq_some hfind
  unfold lineArgs at hargs
  split at hargs
  · next hlt =>
    have hsub : sizeSub (bytes.length - 2) name.length = bytes.length - 2 - name.length :=
      sizeSub_of_le (by omega) (by omega)
    have hsub' : sizeSub (bytes.length - 2 - name.length) 1 = bytes.length - 2 - name.length - 1 :=
      sizeSub_of_le (by omega) (by omega)
    rw [hsub, hsub'] at hargs
    obtain rfl := Option.some.inj hargs
    refine ⟨name, hmem, hlt, rfl, rfl, ?_, rfl, ?_⟩
    · show name.length + 1 + (bytes.length - 2 - name.length - 1) < requestLenMax
      omega
    · show (lineBuffer bytes)[name.length + 1 + (bytes.length - 2 - name.length - 1)]? = some 0
      obtain ⟨rest, hrest⟩ := lineBuffer_spec h
      have hline := h.1
      have hpos : name.length + 1 + (bytes.length - 2 - name.length - 1) =
          (bytes.take (bytes.length - 2)).length := by
        rw [List.length_take]
        omega
      rw [hrest, hpos, List.getElem?_append_right le_rfl, Nat.sub_self]
      rfl
  · simp at hargs

theorem readMarks_inBounds {sock : Int} {answer : Option (List Byte)}
    (hlen : (answer.getD []).length < requestLenMax) :
    InBounds (readMarks answer ++ examined sock answer) := by
  generalize hbytes : answer.getD [] = bytes at hlen
  constructor
  · intro i hi
    rcases List.mem_append.mp hi with hi | hi
    · unfold readMarks at hi
      rw [hbytes] at hi
      split at hi
      · next hline =>
        -- the NUL is stored where the line had its CR
        have h2 := hline.1
        have hi' : i = bytes.length - 2 := by
          unfold lineMarks at hi
          split at hi <;> simpa using hi
        omega
      · simp at hi
    · rcases mem_examined hi with h | ⟨j, h, hj⟩
      · simp at h
      · obtain rfl := Event.index.inj h
        rw [hbytes] at hj
        omega
  · intro c args hd
    rcases List.mem_append.mp hd with hd | hd
    · unfold readMarks at hd ⊢
      rw [hbytes] at hd ⊢
      split at hd
      · next hline =>
        refine ⟨lineBuffer bytes, bytes.length - 2, ?_, ?_⟩
        · rw [if_pos hline]
          simp [lineMarks]
        · unfold lineMarks at hd
          split at hd
          · next name c' hfind =>
            simp only [List.cons_append, List.nil_append, List.mem_cons, reduceCtorEq,
              List.not_mem_nil, or_false] at hd
            obtain ⟨rfl, hargs⟩ := Event.dispatch.inj hd
            exact lineArgs_inRequest hline hlen hfind hargs.symm
          · simp at hd
      · simp at hd
    · rcases mem_examined hd with h | ⟨j, h, -⟩ <;> simp at h

/-- **The request buffer is used inside its bounds exactly if the read does not fill
it.** -/
theorem handleConnection_inBounds_iff (h : Reachable os argv s) :
    ∃ N, (handleConnection os s).2.log = N ++ s.log ∧
      (InBounds N ↔ ((received os s).getD []).length ≠ requestLenMax) := by
  have hwp := @wp_handleConnection os s h.sound.configured.addressed
  have hle : ((received os s).getD []).length ≤ requestLenMax := by
    cases hread : received os s with
    | none => exact Nat.zero_le _
    | some bytes => exact os.read_length_le hread
  -- the NUL is stored behind what was read, so its index is among the records
  have hiff : ∀ {N : List Event}, .index ((received os s).getD []).length ∈ N →
      (((received os s).getD []).length < requestLenMax → InBounds N) →
      (InBounds N ↔ ((received os s).getD []).length ≠ requestLenMax) := by
    intro N hindex hin
    exact ⟨fun hb => (hb.indices _ hindex).ne, fun hne => hin (lt_of_le_of_ne hle hne)⟩
  have hexamined : ∀ {answer : Option (List Byte)} {M : List Event} {sock : Int},
      .index (answer.getD []).length ∈ M ++ (readMarks answer ++ examined sock answer) := by
    intro answer M sock
    simp [examined]
  rcases hrun : handleConnection os s with ⟨_ | r, s'⟩
  · unfold wp at hwp
    rw [hrun] at hwp
    cases hwp with
    | @overlong bytes hread hover =>
      obtain ⟨bytes', hread', hfull, -⟩ := hover
      obtain rfl := Option.some.inj (hread.symm.trans hread')
      refine ⟨[.index bytes.length, .read s.data.clientSock requestLenMax (some bytes)], rfl,
        hiff ?_ fun hlt => ?_⟩
      · rw [hread]
        simp
      · rw [hread, Option.getD_some] at hlt
        omega
    | @line bytes s' hread hline hk =>
      obtain ⟨name, c, hfind, -, -, L, hL, rfl⟩ := hk
      rw [calledState_log hline hfind, ← hread]
      refine ⟨L ++ (readMarks (received os s) ++ examined s.data.clientSock (received os s)), ?_,
        hiff hexamined fun hlt => ?_⟩
      · simp
      · exact (readMarks_inBounds hlt).of_unmarked (hL.ofKind.mono (by simp))
  · obtain ⟨M, hM, hlog⟩ := (of_wp_run hwp hrun).exists_unmarked
    refine ⟨M ++ (readMarks (received os s) ++ examined s.data.clientSock (received os s)), ?_,
      hiff hexamined fun hlt => ?_⟩
    · rw [hlog]
      simp
    · exact (readMarks_inBounds hlt).of_unmarked hM

/-- A line of as many bytes as the buffer holds behind one for the NUL. -/
def longLine : List Byte := ascii "SIZE " ++ List.replicate 280 65 ++ crlf

/-- A machine on which the client sends it. -/
def longLineHost : Host := { nodes := [Host.srv], reads := [some longLine] }

/-- The turn in which the client sends it stays inside. -/
theorem handleConnection_inBounds_longest :
    let s := Host.run longLineHost.os 2 (Host.start longLineHost.os Host.argv)
    received longLineHost.os s = some longLine ∧ longLine.length = 287 ∧
      ∃ N, (handleConnection longLineHost.os s).2.log = N ++ s.log ∧ InBounds N := by
  have hreach : Reachable longLineHost.os Host.argv
      (Host.run longLineHost.os 2 (Host.start longLineHost.os Host.argv)) :=
    Host.reachable_run (by decide +kernel)
  obtain ⟨N, hlog, hiff⟩ := handleConnection_inBounds_iff hreach
  exact ⟨by decide +kernel, by decide +kernel, N, hlog, hiff.mpr (by decide +kernel)⟩

/-- A machine on which the client sends as many bytes as the buffer holds. -/
def floodHost : Host :=
  { nodes := [Host.srv], reads := [some (List.replicate requestLenMax 65)], survives := false }

/-- **A read that fills the buffer overruns it**: the NUL behind what was read is stored
at index 288 of 288. -/
theorem full_read_overruns :
    let s := Host.run floodHost.os 2 (Host.start floodHost.os Host.argv)
    Reachable floodHost.os Host.argv s ∧ s.data.isConnected = true ∧
      received floodHost.os s = some (List.replicate requestLenMax 65) ∧
      .index 288 ∈ (handleConnection floodHost.os s).2.log := by
  refine ⟨Host.reachable_run (by decide +kernel), ?_, ?_, ?_⟩ <;> decide +kernel

/-! ### The commands that are executed -/

/-- The bytes that were read from a client. -/
def Event.received : Event → List (List Byte)
  | .read _ _ (some bytes) => [bytes]
  | _ => []

/-- The line that was handed to the parser. -/
def Event.requested : Event → List (List Byte)
  | .request buffer len => [buffer.take len]
  | _ => []

/-- The command whose handler was called, with its arguments. -/
def Event.executed : Event → List (Command × Option Args)
  | .dispatch c args => [(c, args)]
  | _ => []

/-- What was read from the clients, in order. -/
def reads (log : Log) : List (List Byte) := chronicle Event.received log

/-- The lines that were handed to the parser, in order. -/
def requests (log : Log) : List (List Byte) := chronicle Event.requested log

/-- The handlers that were called, in order. -/
def executed (log : Log) : List (Command × Option Args) := chronicle Event.executed log

/-- The lines among the read results are the ones that were handed to the parser, and
their handlers were called. -/
structure InStep (log : Log) : Prop where
  requests : requests log = (reads log).filterMap asLine
  executed : executed log = ((reads log).filterMap asLine).filterMap handlerCall

/-- Records that are neither a read nor a mark of a line. -/
theorem OfKind.silent_requests {ks : List Kind} (h : OfKind ks N) (hr : .read ∉ ks)
    (hl : .line ∉ ks) (log : Log) : reads (N ++ log) = reads log ∧
      requests (N ++ log) = requests log ∧ executed (N ++ log) = executed log := by
  refine ⟨chronicle_append_of_silent fun e he => ?_, chronicle_append_of_silent fun e he => ?_,
    chronicle_append_of_silent fun e he => ?_⟩
  all_goals
    have hk := h e he
    cases e <;> first | rfl | exact absurd hk hr | exact absurd hk hl

/-- Reading hands nothing on yet. -/
theorem examinedLog_requests (sock : Int) (answer : Option (List Byte)) (log : Log) :
    reads (examinedLog sock answer log) = reads log ++ answer.toList ∧
      requests (examinedLog sock answer log) = requests log ∧
      executed (examinedLog sock answer log) = executed log := by
  unfold examinedLog examined
  split <;> cases answer <;>
    simp [reads, requests, executed, Event.received, Event.requested, Event.executed]

/-- A line is handed on, and the handler it names is called. -/
theorem lineMarks_requests (hline : IsLine bytes) (log : Log) :
    reads (lineMarks bytes ++ log) = reads log ∧
      requests (lineMarks bytes ++ log) = requests log ++ [bytes.take (bytes.length - 2)] ∧
      executed (lineMarks bytes ++ log) =
        executed log ++ (handlerCall (bytes.take (bytes.length - 2))).toList := by
  have htake := take_lineBuffer hline
  have hlen : (bytes.take (bytes.length - 2)).length = bytes.length - 2 := by simp
  rw [handlerCall, hline.eq_append, hlen]
  unfold lineMarks
  cases commandFind (lineBuffer bytes) <;>
    simp [reads, requests, executed, Event.received, Event.requested, Event.executed, htake]

namespace InStep

variable {log : Log}

theorem adds {ks : List Kind} {log' : Log} (h : InStep log) (ha : Adds ks log log')
    (hr : .read ∉ ks) (hl : .line ∉ ks) : InStep log' := by
  obtain ⟨N, rfl, hN⟩ := ha
  obtain ⟨h1, h2, h3⟩ := hN.silent_requests hr hl log
  exact ⟨by rw [h1, h2, h.requests], by rw [h1, h3, h.executed]⟩

/-- **Reading, and handing on what was read.** -/
theorem read (h : InStep log) (sock : Int) (answer : Option (List Byte)) :
    InStep (readMarks answer ++ examinedLog sock answer log) := by
  obtain ⟨hr, hq, hx⟩ := examinedLog_requests sock answer log
  by_cases hline : IsLine (answer.getD [])
  · obtain ⟨bytes, rfl⟩ : ∃ bytes, answer = some bytes := by
      cases answer with
      | none => exact absurd hline (by decide)
      | some bytes => exact ⟨bytes, rfl⟩
    rw [Option.getD_some] at hline
    have hasLine : asLine bytes = some (bytes.take (bytes.length - 2)) := if_pos hline
    have hmarks : readMarks (some bytes) = lineMarks bytes := if_pos hline
    obtain ⟨hr', hq', hx'⟩ := lineMarks_requests hline (examinedLog sock (some bytes) log)
    rw [hmarks]
    constructor
    · rw [hr', hq', hr, hq, h.requests, List.filterMap_append]
      simp [hasLine]
    · rw [hr', hx', hr, hx, h.executed, List.filterMap_append, List.filterMap_append]
      cases hcall : handlerCall (bytes.take (bytes.length - 2)) <;> simp [hasLine, hcall]
  · -- what is not a line is not handed on
    have hnone : answer.toList.filterMap asLine = [] := by
      cases answer with
      | none => rfl
      | some bytes =>
        have hasLine : asLine bytes = none := if_neg hline
        simp [hasLine]
    rw [readMarks_of_not_line hline, List.nil_append]
    constructor
    · rw [hr, hq, h.requests, List.filterMap_append, hnone, List.append_nil]
    · rw [hr, hx, h.executed, List.filterMap_append, hnone, List.append_nil]

/-- **A step keeps in step.** -/
theorem step {r : Int} (h : InStep s.log) (hs : Step os s r s') : InStep s'.log := by
  cases hs with
  | starting _ hs => exact h.adds hs.adds (by decide) (by decide)
  | waiting _ _ hs => exact h.adds hs.adds (by decide) (by decide)
  | conversing _ _ hs =>
    obtain ⟨N, hN, hlog⟩ := hs.exists_unmarked
    rw [hlog]
    exact (h.read _ _).adds (.mk hN) (by decide) (by decide)

end InStep

/-- **The commands that are executed are those of the read results that are lines**, in
order, each with the arguments of its line.  So if every read result is a line that is
not empty and its CRLF, then one command is executed for each line, in order, if it
names one. -/
theorem one_command_per_read (h : Reachable os argv s) :
    requests s.log = (reads s.log).filterMap asLine ∧
      executed s.log = (requests s.log).filterMap handlerCall ∧
      ∀ lines : List (List Byte), (∀ line ∈ lines, line ≠ []) →
        reads s.log = lines.map (· ++ crlf) →
          requests s.log = lines ∧ executed s.log = lines.filterMap handlerCall := by
  have hinv : InStep s.log := by
    refine h.invariant (I := fun s => InStep s.log) ?_ ?_
    · intro s h0
      have hnil : InStep [] := ⟨rfl, rfl⟩
      have hL := (started_spec h0).2.ofKind
      exact hnil.adds ⟨s.log, by simp, hL⟩ (by decide) (by decide)
    · exact fun a b hr hi ht => hi.step (Reachable.step hr ht)
  have hlines : ∀ lines : List (List Byte), (∀ line ∈ lines, line ≠ []) →
      (lines.map (· ++ crlf)).filterMap asLine = lines := by
    intro lines hne
    have hsome : lines.filterMap (asLine ∘ (· ++ crlf)) = lines.filterMap some :=
      List.filterMap_congr fun line hl => asLine_append (hne line hl)
    rw [List.filterMap_map, hsome, List.filterMap_some]
  refine ⟨hinv.requests, by rw [hinv.requests, hinv.executed], fun lines hne hreads => ?_⟩
  have hrequests := hinv.requests
  have hexecuted := hinv.executed
  rw [hreads, hlines lines hne] at hrequests hexecuted
  exact ⟨hrequests, hexecuted⟩

/-- The client on this machine has its command sent in two parts. -/
def splitHost : Host :=
  { nodes := [Host.srv], reads := [some (ascii "PA"), some (ascii "SV" ++ crlf)] }

/-- The client on this machine has it sent in one. -/
def wholeHost : Host := { nodes := [Host.srv], reads := [some (ascii "PASV" ++ crlf)] }

/-- What a third client sends: commands with arguments and without, and a line that names none. -/
def askedLines : List (List Byte) :=
  [ascii "USER anonymous", ascii "NOOP", ascii "TYPE A", ascii "PWD", ascii "PASV"]

def askedHost : Host := { nodes := [Host.srv], reads := askedLines.map fun l => some (l ++ crlf) }

/-- Its commands are executed in order. -/
theorem one_command_per_read_asked :
    let s := Host.run askedHost.os 7 (Host.start askedHost.os Host.argv)
    requests s.log = askedLines ∧ executed s.log = askedLines.filterMap handlerCall ∧
      (executed s.log).map (·.1) = [.user, .type, .pwd, .pasv] := by
  have hreach : Reachable askedHost.os Host.argv
      (Host.run askedHost.os 7 (Host.start askedHost.os Host.argv)) :=
    Host.reachable_run (by decide +kernel)
  obtain ⟨h1, h2⟩ := (one_command_per_read hreach).2.2 askedLines (by decide) (by decide +kernel)
  exact ⟨h1, h2, by decide +kernel⟩

/-- **A command that arrives in two reads is lost**: the same bytes arrive, but nothing
is executed. -/
theorem split_line_is_lost :
    let s := Host.run splitHost.os 4 (Host.start splitHost.os Host.argv)
    let s' := Host.run wholeHost.os 3 (Host.start wholeHost.os Host.argv)
    Reachable splitHost.os Host.argv s ∧ Reachable wholeHost.os Host.argv s' ∧
      (reads s.log).flatten = (reads s'.log).flatten ∧
      executed s.log = [] ∧ executed s'.log = [(.pasv, none)] := by
  refine ⟨Host.reachable_run ?_, Host.reachable_run ?_, ?_, ?_, ?_⟩ <;> decide +kernel

end VsFtp
