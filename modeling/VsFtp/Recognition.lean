import VsFtp.Requests

/-!
# Which lines are commands

`VSFTPCommandsParse` looks for the first name in its table that the line starts with.  The byte
behind the name is taken for the separator without being looked at, so a line is a command
whenever it starts with the name of one.

## Main definitions

* `Grammar` — the lines that are meant to be commands.
* `Ran` — a handler was called with the given arguments.
* `Recognised` — a line is treated as the grammar says.
* `Lookalike` — a line with something else than a space behind the name of a command.

## Main results

* `commandFind_eq_some_iff` — the table is searched for the name the line starts with.
* `commandHandle_unmarked` — no handler calls another one.
* `recognition_iff` — **exactly the lines that are no lookalikes are treated as the grammar says.**
* `lookalike_logs_in` — a client that logs in without a space.
-/

namespace VsFtp

open CString Prog

attribute [local irreducible] serverSendReply

variable {os : Os} {s : St} {E : St → Prop} {line rest name : List Byte} {c : Command}

/-! ### The grammar -/

/-- The lines that are commands, with their arguments: a name alone, or a name, a space and the
arguments. -/
inductive Grammar : List Byte → Command → Option (List Byte) → Prop
  | alone {name : List Byte} {c : Command} (h : (name, c) ∈ commands) : Grammar name c none
  | separated {name args : List Byte} {c : Command} (h : (name, c) ∈ commands) :
      Grammar (name ++ 32 :: args) c (some args)

/-- The handler of `c` was called, with the given arguments if there are any. -/
def Ran (N : List Event) (c : Command) : Option (List Byte) → Prop
  | none => (c, none) ∈ executed N
  | some args => ∃ offset, (c, some ⟨offset, args.length, args⟩) ∈ executed N

/-- The reply to a line that is no command. -/
def notImplemented : List Byte := ascii "502 Command not implemented." ++ crlf

/-- With the result `r` and the records `N` the line is treated as the grammar says. -/
structure Recognised (s : St) (line : List Byte) (r : Option Int) (N : List Event) : Prop where
  ran : ∀ c args, Ran N c args ↔ Grammar line c args
  once : (executed N).length ≤ 1
  refused : (∀ c args, ¬ Grammar line c args) → executed N = [] ∧
    (∃ w, .write .client s.data.clientSock notImplemented w ∈ N) ∧ ∃ k, r = some k ∧ k ≠ 0

/-- A line that starts with the name of a command and goes on with something else than a space. -/
def Lookalike (line : List Byte) : Prop :=
  ∃ name c x rest, (name, c) ∈ commands ∧ line = name ++ x :: rest ∧ x ≠ 32

/-- To find out, look at the byte behind the name. -/
theorem lookalike_iff : Lookalike line ↔
    ∃ e ∈ commands, e.1 <+: line ∧ (line.drop e.1.length).headD 32 ≠ 32 := by
  constructor
  · rintro ⟨name, c, x, rest, hmem, rfl, hx⟩
    refine ⟨(name, c), hmem, List.prefix_append _ _, ?_⟩
    rw [List.drop_left' rfl]
    exact hx
  · rintro ⟨⟨name, c⟩, hmem, ⟨tail, rfl⟩, hx⟩
    rw [List.drop_left' rfl] at hx
    cases tail with
    | nil => exact absurd rfl hx
    | cons x rest => exact ⟨name, c, x, rest, hmem, rfl, hx⟩

instance (line : List Byte) : Decidable (Lookalike line) := decidable_of_iff' _ lookalike_iff

/-! ### The table -/

theorem noNul_of_mem_commands : ∀ e ∈ commands, NoNul e.1 := by decide

theorem eq_of_prefix_of_mem_commands : ∀ e ∈ commands, ∀ e' ∈ commands, e.1 <+: e'.1 → e = e' := by
  decide

/-- **A line starts with the name of one command at most.** -/
theorem eq_of_mem_commands {e e' : List Byte × Command} (he : e ∈ commands) (he' : e' ∈ commands)
    (h : e.1 <+: line) (h' : e'.1 <+: line) : e = e' := by
  rcases List.prefix_or_prefix_of_prefix h h' with hpre | hpre
  · exact eq_of_prefix_of_mem_commands e he e' he' hpre
  · exact (eq_of_prefix_of_mem_commands e' he' e he hpre).symm

/-- A text without a NUL does not reach over the end of the line. -/
theorem prefix_append_nul_iff (hn : NoNul name) : name <+: line ++ 0 :: rest ↔ name <+: line := by
  constructor
  · intro h
    rcases Nat.lt_or_ge line.length name.length with hlt | hle
    · have hnul : line ++ [0] <+: name := by
        refine List.prefix_of_prefix_length_le ⟨rest, by simp⟩ h ?_
        rw [List.length_append, List.length_singleton]
        exact hlt
      exact absurd (hnul.subset (by simp)) hn
    · exact List.prefix_of_prefix_length_le h (List.prefix_append _ _) hle
  · exact fun h => h.trans (List.prefix_append _ _)

/-- **The table is searched for the name the line starts with.** -/
theorem commandFind_eq_some_iff {e : List Byte × Command} :
    commandFind (line ++ 0 :: rest) = some e ↔ e ∈ commands ∧ e.1 <+: line := by
  have hmatch : ∀ e' ∈ commands,
      (strncmp (line ++ 0 :: rest) e'.1 e'.1.length = true ↔ e'.1 <+: line) := by
    intro e' he'
    have hn := noNul_of_mem_commands e' he'
    rw [strncmp_eq_true_iff hn, prefix_append_nul_iff hn]
  have hfound : ∀ {e' : List Byte × Command}, commandFind (line ++ 0 :: rest) = some e' →
      e' ∈ commands ∧ e'.1 <+: line := by
    intro e' h
    have hmem := List.mem_of_find?_eq_some h
    have hfit := List.find?_some (p := fun e : List Byte × Command =>
      strncmp (line ++ 0 :: rest) e.1 e.1.length) h
    exact ⟨hmem, (hmatch e' hmem).mp hfit⟩
  constructor
  · exact hfound
  · rintro ⟨hmem, hpre⟩
    cases hfind : commandFind (line ++ 0 :: rest) with
    | none => exact absurd ((hmatch e hmem).mpr hpre) (List.find?_eq_none.mp hfind e hmem)
    | some e' =>
      obtain ⟨hmem', hpre'⟩ := hfound hfind
      rw [eq_of_mem_commands hmem' hmem hpre' hpre]

/-- What a line is that starts with the name of a command. -/
theorem grammar_append_iff {tail : List Byte} {c' : Command} {args : Option (List Byte)}
    (h : (name, c) ∈ commands) : Grammar (name ++ tail) c' args ↔
      c' = c ∧ (tail = [] ∧ args = none ∨ ∃ a, tail = 32 :: a ∧ args = some a) := by
  constructor
  · intro hg
    generalize hline : name ++ tail = line at hg
    have hpre : name <+: line := ⟨tail, hline⟩
    cases hg with
    | alone h' =>
      obtain ⟨rfl, rfl⟩ := Prod.mk.inj (eq_of_mem_commands h h' hpre List.prefix_rfl)
      exact ⟨rfl, Or.inl ⟨List.append_right_eq_self.mp hline, rfl⟩⟩
    | separated h' =>
      obtain ⟨rfl, rfl⟩ := Prod.mk.inj (eq_of_mem_commands h h' hpre (List.prefix_append _ _))
      exact ⟨rfl, Or.inr ⟨_, List.append_cancel_left hline, rfl⟩⟩
  · rintro ⟨rfl, ⟨rfl, rfl⟩ | ⟨a, rfl, rfl⟩⟩
    · rw [List.append_nil]
      exact .alone h
    · exact .separated h

/-- A line with the name of no command is no command. -/
theorem Grammar.exists_prefix {args : Option (List Byte)} (h : Grammar line c args) :
    ∃ name, (name, c) ∈ commands ∧ name <+: line := by
  cases h with
  | alone h => exact ⟨_, h, List.prefix_rfl⟩
  | separated h => exact ⟨_, h, List.prefix_append _ _⟩

/-! ### The handlers -/

theorem serverSendReply_adds {text : List Byte} :
    wp os (serverSendReply text) (fun _ s' => Adds [.write] s.log s'.log) E s := by
  rcases Nat.lt_or_ge (text.length + 2) responseLenMax with hlt | hge
  · refine wp_mono (wp_serverSendReply hlt) ?_ fun _ h => h
    rintro _ _ ⟨w, -, rfl⟩
    exact .cons .refl (by simp [Event.kind])
  · refine wp_mono (wp_serverSendReply_long hge) ?_ fun _ h => h
    rintro _ _ ⟨-, rfl⟩
    exact .refl

/-- `PASV` sets up a socket and replies, whatever address it prints. -/
theorem commandHandlerPasv_adds {args : List Byte} {len : ℕ} :
    wp os (commandHandlerPasv args len) (fun _ s' => Adds [.setup, .close, .write] s.log s'.log)
      E s := by
  have hreply : ∀ {text : List Byte} {s1 : St}, Adds [.setup, .close, .write] s.log s1.log →
      wp os (serverSendReply text) (fun _ s' => Adds [.setup, .close, .write] s.log s'.log) E s1 :=
    fun h => wp_mono serverSendReply_adds (fun _ _ h' => h.trans (h'.mono (by decide))) fun _ h => h
  refine wp_closeTransfers fun X Y hX hY => ?_
  have hclosed : Adds [.setup, .close, .write] s.log (Y ++ (X ++ s.log)) :=
    (Adds.mk (hX.ofKind.mono (by decide))).append (hY.ofKind.mono (by decide))
  refine wp_seq (R := fun _ s' => Adds [.setup, .close, .write] s.log s'.log) ?_ ?_
  · refine (wp_bind _ _).mpr (wp_getData.mpr (wp_ite (fun _ => ?_) (fun _ => hclosed)))
    refine wp_mono wp_createPassiveSocket_attempt ?_ fun _ h => h
    rintro retval _ ⟨C, hC, rfl⟩
    exact hclosed.append (hC.creates.ofKind.mono (by decide))
  · intro retval s1 hadds
    refine wp_ite (fun _ => ?_) (fun _ => hreply hadds)
    refine (wp_bind _ _).mpr (wp_ite (fun _ => ?_) (fun _ => ?_))
    · refine (wp_bind _ _).mpr (wp_getData.mpr (wp_seq wp_readString ?_))
      rintro _ _ ⟨-, rfl⟩
      refine (wp_pure _).mpr (wp_ite (fun _ => ?_) (fun _ => hreply hadds))
      refine wp_seq wp_readString ?_
      rintro _ _ ⟨-, rfl⟩
      exact hreply hadds
    · exact (wp_pure _).mpr (wp_ite (fun h => absurd h (by simp)) (fun _ => hreply hadds))

/-- **No handler calls another one.** -/
theorem commandHandle_unmarked {args : List Byte} {len : ℕ} :
    ∃ N, Unmarked N ∧ (commandHandle c args len os s).2.log = N ++ s.log := by
  have hadds : ∀ {ks : List Kind} {s' : St},
      ks ⊆ [.setup, .accept, .close, .write, .lookup, .file, .dir, .result, .session] →
      Adds ks s.log s'.log → ∃ N, Unmarked N ∧ s'.log = N ++ s.log := by
    rintro ks s' hks ⟨N, hlog, hN⟩
    exact ⟨N, hN.mono hks, hlog⟩
  by_cases hc : c = .pasv
  · subst hc
    have hwp := @commandHandlerPasv_adds os s (fun s' => Adds [.setup, .close, .write] s.log s'.log)
      args len
    exact hadds (by decide) (wp_state.mp hwp)
  · refine (wp_state (P := fun s' => ∃ N, Unmarked N ∧ s'.log = N ++ s.log)).mp
      (wp_mono (wp_commandHandle fun h => absurd h hc) ?_ ?_)
    · intro _ _ ho
      exact hadds (by cases c <;> decide) ho.adds
    · rintro _ ⟨-, -, L, hL, rfl⟩
      exact ⟨L, hL.ofKind.mono (by decide), rfl⟩

/-! ### The parser -/

/-- The handler that is found is called once, with what is behind the byte that follows the
name. -/
theorem commandsParse_known {len : ℕ} {buffer : List Byte}
    (hfind : commandFind buffer = some (name, c)) : ∃ N,
      executed N = [(c, lineArgs buffer len name)] ∧
      (commandsParse buffer len os s).2.log = N ++ s.log := by
  refine (wp_state (P := fun s' => ∃ N, executed N = [(c, lineArgs buffer len name)] ∧
    s'.log = N ++ s.log)).mp (wp_commandsParse_called hfind (wp_state.mpr ?_))
  obtain ⟨N, hN, hlog⟩ := @commandHandle_unmarked os (calledState s buffer len name c) c
    (argsArray buffer len name) (argsLen (lineArgs buffer len name))
  refine ⟨N ++ [.dispatch c (lineArgs buffer len name), .request buffer len], ?_, ?_⟩
  · rw [(hN.silent_requests (by decide) (by decide) _).2.2]
    rfl
  · rw [hlog]
    simp [calledState]

/-- A line with the name of no command is refused. -/
theorem commandsParse_refused {len : ℕ} {buffer : List Byte} (hfind : commandFind buffer = none) :
    ∃ N, executed N = [] ∧ (∃ w, .write .client s.data.clientSock notImplemented w ∈ N) ∧
      (commandsParse buffer len os s).1 = some enotsup ∧
      (commandsParse buffer len os s).2.log = N ++ s.log := by
  have hwp : wp os (commandsParse buffer len) (fun r s' => r = enotsup ∧ ∃ w,
      s'.log = [.write .client s.data.clientSock notImplemented w, .request buffer len] ++ s.log)
      (fun _ => False) s := by
    unfold commandsParse
    refine (wp_bind _ _).mpr ((wp_emit _).mpr ?_)
    rw [hfind]
    refine wp_seq (wp_serverSendReply (by decide)) ?_
    rintro _ _ ⟨w, -, rfl⟩
    exact ⟨rfl, w, rfl⟩
  obtain ⟨r, s', hrun, rfl, w, hlog⟩ := exists_run_of_wp hwp
  rw [hrun]
  exact ⟨_, rfl, ⟨w, List.mem_cons_self⟩, rfl, hlog⟩

/-- The arguments that are passed on from a line that goes on behind the name. -/
theorem lineArgs_append {x : Byte} {tail : List Byte}
    (hlen : (name ++ x :: tail).length < requestLenMax) :
    lineArgs (name ++ x :: tail ++ 0 :: rest) (name ++ x :: tail).length name
      = some ⟨name.length + 1, tail.length, tail⟩ := by
  have hmax : requestLenMax = 288 := rfl
  have hline : (name ++ x :: tail).length = name.length + 1 + tail.length := by
    simp only [List.length_append, List.length_cons]
    omega
  have hsub : sizeSub (sizeSub (name ++ x :: tail).length name.length) 1 = tail.length := by
    have hname : sizeSub (name ++ x :: tail).length name.length = 1 + tail.length := by
      rw [sizeSub_of_le (by omega) (by omega)]
      omega
    rw [hname, sizeSub_of_le (by omega) (by omega)]
    omega
  have hdrop : (name ++ x :: tail ++ 0 :: rest).drop (name.length + 1) = tail ++ 0 :: rest := by
    rw [List.append_assoc, ← List.drop_drop, List.drop_left' rfl]
    rfl
  rw [lineArgs, if_pos (by omega), hsub, hdrop, List.take_left' rfl]

/-- Of a line that is the name of a command there are none. -/
theorem lineArgs_self : lineArgs (name ++ 0 :: rest) name.length name = none :=
  if_neg (lt_irrefl _)

/-- What ran, when one handler was called. -/
theorem ran_iff_of_executed {N : List Event} {tail : List Byte} {k : ℕ}
    (h : executed N = [(c, some ⟨k, tail.length, tail⟩)]) {c' : Command}
    {args : Option (List Byte)} : Ran N c' args ↔ c' = c ∧ args = some tail := by
  cases args with
  | none => simp [Ran, h]
  | some a =>
    simp only [Ran, h, List.mem_singleton, Prod.mk.injEq, Option.some.injEq, Args.mk.injEq]
    constructor
    · rintro ⟨_, rfl, -, -, rfl⟩
      exact ⟨rfl, rfl⟩
    · rintro ⟨rfl, rfl⟩
      exact ⟨k, rfl, rfl, rfl, rfl⟩

/-- **Exactly the lines that are no lookalikes are treated as the grammar says.** -/
theorem recognition_iff (os : Os) (s : St) (line rest : List Byte)
    (hlen : line.length < requestLenMax) : ∃ N,
      (commandsParse (line ++ 0 :: rest) line.length os s).2.log = N ++ s.log ∧
      (Recognised s line (commandsParse (line ++ 0 :: rest) line.length os s).1 N ↔
        ¬ Lookalike line) := by
  cases hfind : commandFind (line ++ 0 :: rest) with
  | none =>
    -- the line starts with no name of the table
    have hno : ∀ e ∈ commands, ¬ e.1 <+: line := fun e he hpre =>
      absurd (hfind.symm.trans (commandFind_eq_some_iff.mpr ⟨he, hpre⟩)) (by simp)
    have hgrammar : ∀ c args, ¬ Grammar line c args := by
      intro c args h
      obtain ⟨name, hmem, hpre⟩ := h.exists_prefix
      exact hno _ hmem hpre
    obtain ⟨N, hN, hwrite, hr, hlog⟩ := @commandsParse_refused os s line.length _ hfind
    refine ⟨N, hlog, iff_of_true
      ⟨fun c args => ?_, by simp [hN], fun _ => ⟨hN, hwrite, _, hr, ?_⟩⟩ ?_⟩
    · refine iff_of_false ?_ (hgrammar c args)
      cases args <;> simp [Ran, hN]
    · decide
    · rintro ⟨name, c, x, tail, hmem, rfl, -⟩
      exact hno _ hmem (List.prefix_append _ _)
  | some e =>
    obtain ⟨name, c⟩ := e
    obtain ⟨hmem, tail, rfl⟩ := commandFind_eq_some_iff.mp hfind
    obtain ⟨N, hN, hlog⟩ := @commandsParse_known os s name c (name ++ tail).length _ hfind
    refine ⟨N, hlog, ?_⟩
    cases tail with
    | nil =>
      -- the name alone
      simp only [List.append_nil, lineArgs_self] at hN ⊢
      have hgrammar := fun c' args => @grammar_append_iff name c [] c' args hmem
      simp only [List.append_nil] at hgrammar
      refine iff_of_true ⟨fun c' args => ?_, by simp [hN], fun hno => ?_⟩ ?_
      · rw [hgrammar]
        cases args <;> simp [Ran, hN]
      · exact absurd (.alone hmem) (hno c none)
      · rintro ⟨name', c', x, tail, hmem', hname, -⟩
        have hpre : name' <+: name := ⟨_, hname.symm⟩
        obtain ⟨rfl, -⟩ := Prod.mk.inj (eq_of_prefix_of_mem_commands _ hmem' _ hmem hpre)
        exact absurd (List.append_right_eq_self.mp hname.symm) (by simp)
    | cons x tail =>
      rw [lineArgs_append hlen] at hN
      constructor
      · -- the arguments that are passed on are those of the grammar, so the byte is a space
        rintro hrec ⟨name', c', x', tail', hmem', hline, hx⟩
        obtain ⟨rfl, rfl⟩ := Prod.mk.inj
          (eq_of_mem_commands hmem hmem' (List.prefix_append _ _) ⟨_, hline.symm⟩)
        obtain ⟨rfl, rfl⟩ := List.cons.inj (List.append_cancel_left hline)
        have hran := (hrec.ran c (some tail)).mp ((ran_iff_of_executed hN).mpr ⟨rfl, rfl⟩)
        rcases ((grammar_append_iff hmem).mp hran).2 with ⟨h, -⟩ | ⟨a, h, -⟩
        · exact absurd h (by simp)
        · exact hx (List.cons.inj h).1
      · intro hno
        obtain rfl : x = 32 := by
          by_contra hx
          exact hno ⟨name, c, x, tail, hmem, rfl, hx⟩
        refine ⟨fun c' args => ?_, by simp [hN], fun h => ?_⟩
        · rw [ran_iff_of_executed hN, grammar_append_iff hmem]
          constructor
          · rintro ⟨rfl, rfl⟩
            exact ⟨rfl, Or.inr ⟨tail, rfl, rfl⟩⟩
          · rintro ⟨rfl, ⟨h, -⟩ | ⟨a, h, rfl⟩⟩
            · exact absurd h (by simp)
            · exact ⟨rfl, by rw [(List.cons.inj h).2]⟩
        · exact absurd (.separated hmem) (h c (some tail))

/-- The state in which the first line of the client on `Host.plain` could arrive. -/
def lineAwaited : St := Host.run Host.plain.os 2 (Host.start Host.plain.os Host.argv)

/-- A line with a space in it is treated as the grammar says. -/
theorem recognition_iff_type : ∃ N,
    (commandsParse (ascii "TYPE I" ++ 0 :: []) 6 Host.plain.os lineAwaited).2.log
      = N ++ lineAwaited.log ∧
    Recognised lineAwaited (ascii "TYPE I")
      (commandsParse (ascii "TYPE I" ++ 0 :: []) 6 Host.plain.os lineAwaited).1 N := by
  obtain ⟨N, hlog, hiff⟩ :=
    recognition_iff Host.plain.os lineAwaited (ascii "TYPE I") [] (by decide)
  exact ⟨N, hlog, hiff.mpr (by decide)⟩

/-- A machine whose client leaves out the space. -/
def gluedHost : Host :=
  { nodes := [Host.srv], reads := [some (ascii "USERxanonymous" ++ crlf)] }

/-- **A client logs in with a line that is no command.** -/
theorem lookalike_logs_in : ∃ s s', Reachable gluedHost.os Host.argv s ∧
    s.data.isConnected = true ∧ received gluedHost.os s = some (ascii "USERxanonymous" ++ crlf) ∧
    serverHandler gluedHost.os s = (some 0, s') ∧
    executed s'.log = [(.user, some ⟨5, 9, ascii "anonymous"⟩)] ∧
    .write .client s.data.clientSock (ascii "230 User logged in, proceed." ++ crlf) 30 ∈ s'.log ∧
    ∀ c args, ¬ Grammar (ascii "USERxanonymous") c args := by
  refine ⟨Host.run gluedHost.os 2 (Host.start gluedHost.os Host.argv),
    Host.run gluedHost.os 3 (Host.start gluedHost.os Host.argv),
    Host.reachable_run (by decide +kernel), by decide +kernel, by decide +kernel,
    Prod.ext (by decide +kernel) rfl, by decide +kernel, by decide +kernel, fun c args h => ?_⟩
  have hmem : (ascii "USER", Command.user) ∈ commands := by decide
  have hiff := @grammar_append_iff (ascii "USER") .user (ascii "xanonymous") c args hmem
  rcases (hiff.mp h).2 with ⟨h, -⟩ | ⟨a, h, -⟩
  · exact absurd h (by decide)
  · exact absurd (List.cons.inj h).1 (by decide)

end VsFtp
