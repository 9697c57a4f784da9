import VsFtp.Host
import VsFtp.Invariants
import VsFtp.Turns

/-!
# What a command may change

All handlers work on one record.  Each of its fields belongs to one command: the working
directory to `CWD`, the transfer mode to `TYPE`, the connection to `USER`; and the command
answers what it did.  The transfer sockets alone are everybody's.

## Main definitions

* `Attempts`, `Delivers` — a reply with a code is handed to `write`, or accepted by it.
* `resolveArg` — how a handler resolves its argument.
* `Effect` — what a handler does to the record.
* `Framed` — what a turn does to the record.

## Main results

* `wp_commandHandle_effect` — one effect for each handler, however it ends.
* `command_frame` — **a request changes only what belongs to its command.**
-/

namespace VsFtp

open CString Prog

attribute [local irreducible] serverSendReply helpText

variable {os : Os} {s s' s1 : St} {E : St → Prop} {argv : Argv} {code : List Byte}
  {N : List Event}

/-! ### Replies by their codes -/

/-- A reply with the given code was handed to `write`. -/
def Attempts (code : List Byte) (N : List Event) : Prop :=
  ∃ fd text w, .write .client fd text w ∈ N ∧ code <+: text

/-- A reply with the given code was sent. -/
def Delivers (code : List Byte) (N : List Event) : Prop :=
  ∃ fd text w, .write .client fd text w ∈ N ∧ code <+: text ∧ w ≠ -1

theorem Attempts.mono {M : List Event} (h : Attempts code N) (hs : N ⊆ M) : Attempts code M := by
  obtain ⟨fd, text, w, he, hc⟩ := h
  exact ⟨fd, text, w, hs he, hc⟩

theorem Delivers.mono {M : List Event} (h : Delivers code N) (hs : N ⊆ M) : Delivers code M := by
  obtain ⟨fd, text, w, he, hc⟩ := h
  exact ⟨fd, text, w, hs he, hc⟩

theorem attempts_append {M : List Event} :
    Attempts code (M ++ N) ↔ Attempts code M ∨ Attempts code N := by
  constructor
  · rintro ⟨fd, text, w, he, hc⟩
    exact (List.mem_append.mp he).imp (fun he => ⟨fd, text, w, he, hc⟩)
      fun he => ⟨fd, text, w, he, hc⟩
  · rintro (h | h)
    · exact h.mono (List.subset_append_left M N)
    · exact h.mono (List.subset_append_right M N)

/-- Records of other kinds are no attempt. -/
theorem not_attempts {ks : List Kind} (hN : OfKind ks N) (hk : .write ∉ ks) :
    ¬ Attempts code N := by
  rintro ⟨fd, text, w, he, -⟩
  exact hk (hN _ he)

/-! ### What a handler changes -/

/-- How a handler resolves its argument. -/
def resolveArg (args : List Byte) (len : ℕ) : ServerM PathOut := do
  let path ← readString args
  serverServerPathToRealPath path len [] pathLenMax 0

/-- What the handler of a command does to the record, with the records it adds to the log. -/
inductive Effect (os : Os) (s : St) (args : List Byte) (len : ℕ) :
    Command → ServerData → List Event → Prop
  | kept {c : Command} {N : List Event} {a b : Int} (hno : c = .cwd → ¬ Attempts (ascii "250") N) :
      Effect os s args len c { s.data with transferSock := a, transferClientSock := b } N
  | switched {N : List Event} {mode : Bool} (h : Delivers (ascii "200") N) :
      Effect os s args len .type { s.data with transferModeBinary := mode } N
  | rejected {N : List Event} (h : Attempts (ascii "530") N) :
      Effect os s args len .user { s.data with isConnected := false, clientSock := -1,
                                               transferSock := -1, transferClientSock := -1 } N
  | entered {N : List Event} {log : Log} {s2 : St} {p r r' : List Byte}
      (h : Attempts (ascii "250") N) (hp : os.realpath s.log p = some r)
      (hlen : r.length < pathLenMax)
      (hrun : resolveArg args len os s = (some ⟨0, strncpy [] 0 r pathLenMax, r.length⟩, s2))
      (hr : os.realpath log r = some r') :
      Effect os s args len .cwd { s.data with cwd := r', cwdLen := r'.length } N

/-- The handler ends with such an effect. -/
def Affects (os : Os) (s : St) (args : List Byte) (len : ℕ) (c : Command) (s' : St) : Prop :=
  ∃ N, s'.log = N ++ s.log ∧ Effect os s args len c s'.data N

variable {args : List Byte} {len : ℕ} {c : Command}

/-- A handler other than `CWD` that leaves the record alone. -/
theorem Affects.of_data (hc : c ≠ .cwd) (hd : s'.data = s.data) (hlog : s.log <:+ s'.log) :
    Affects os s args len c s' := by
  obtain ⟨N, hN⟩ := hlog
  refine ⟨N, hN.symm, ?_⟩
  rw [hd]
  exact .kept fun h => absurd h hc

theorem Affects.of_killed (h : Killed os s s') : Affects os s args len c s' := by
  obtain ⟨-, L, hL, rfl⟩ := h
  refine ⟨L, rfl, .kept fun _ => ?_⟩
  rintro ⟨fd, text, w, he, -⟩
  exact absurd (hL _ he) Bool.false_ne_true

/-- A handler that sends a reply, if it fits. -/
theorem wp_reply_affects {text : List Byte} (hc : c ≠ .cwd) :
    wp os (serverSendReply text) (fun _ => Affects os s args len c) E s := by
  by_cases hlen : text.length + 2 < responseLenMax
  · refine wp_mono (wp_serverSendReply hlen) ?_ fun _ h => h
    rintro _ _ ⟨w, -, rfl⟩
    exact .of_data hc rfl (List.suffix_cons _ _)
  · refine wp_mono (wp_serverSendReply_long (not_lt.mp hlen)) ?_ fun _ h => h
    rintro _ _ ⟨-, rfl⟩
    exact .of_data hc rfl List.suffix_rfl

theorem wp_commandHandlerUser_effect :
    wp os (commandHandlerUser args len) (fun _ => Affects os s args len .user) E s := by
  unfold commandHandlerUser
  refine wp_ite (fun _ => wp_reply_affects (by decide)) (fun _ => ?_)
  refine wp_seq (wp_serverSendReply (by decide)) ?_
  rintro _ _ ⟨w, -, rfl⟩
  refine wp_seq wp_serverClientDisconnect ?_
  rintro _ s2 hd
  obtain ⟨M, hM, -⟩ := hd.adds
  refine ⟨M ++ [.write .client s.data.clientSock (ascii "530 Login incorrect." ++ crlf) w],
    by rw [hM]; simp, ?_⟩
  have hcode : ascii "530" <+: ascii "530 Login incorrect." ++ crlf := by decide
  cases hd with
  | mk => exact .rejected ⟨_, _, w, List.mem_append_right M (List.mem_singleton_self _), hcode⟩

/-- The mode is switched once the reply is sent. -/
theorem wp_switch_effect {text : List Byte} {mode : Bool} (hlen : text.length + 2 < responseLenMax)
    (hcode : ascii "200" <+: text ++ crlf) :
    wp os (do
      let retval ← serverSendReply text
      onOk retval (serverSetTransferMode mode) : ServerM Int)
      (fun _ => Affects os s args len .type) E s := by
  refine wp_seq (wp_serverSendReply hlen) ?_
  rintro _ _ ⟨w, rfl, rfl⟩
  refine wp_onOk (fun h0 => ?_) (fun _ => .of_data (by decide) rfl (List.suffix_cons _ _))
  have hw : w ≠ -1 := fun hw => absurd ((if_pos hw).symm.trans h0) (by decide)
  exact ⟨[_], rfl, .switched ⟨_, _, w, List.mem_singleton_self _, hcode, hw⟩⟩

theorem wp_commandHandlerType_effect :
    wp os (commandHandlerType args len) (fun _ => Affects os s args len .type) E s := by
  unfold commandHandlerType
  refine wp_ite (fun _ => wp_switch_effect (by decide) (by decide)) (fun _ => ?_)
  refine wp_ite (fun _ => wp_switch_effect (by decide) (by decide)) (fun _ => ?_)
  exact wp_reply_affects (by decide)

theorem wp_commandHandlerPwd_effect :
    wp os (commandHandlerPwd args len) (fun _ => Affects os s args len .pwd) (Killed os s) s := by
  unfold commandHandlerPwd
  refine wp_seq (wp_serverGetCwd PrintKills.killed) ?_
  rintro cwd s2 ⟨hcwd, rfl⟩
  refine wp_seq (R := fun _ s' => s' = s2)
    (wp_ite (fun _ => wp_serverRealPathToServerPath_unchanged) (fun _ => rfl)) ?_
  rintro out _ rfl
  exact wp_ite (fun _ => (wp_bind _ _).mpr (wp_reply_affects (by decide)))
    (fun _ => wp_reply_affects (by decide))

theorem wp_commandHandlerHelp_effect :
    wp os (commandHandlerHelp args len) (fun _ => Affects os s args len .help) E s := by
  unfold commandHandlerHelp
  generalize helpText = text
  cases text with
  | none => exact .of_data (by decide) rfl List.suffix_rfl
  | some buf =>
    unfold serverSendReplyOwnBuf sendReplyOwnBuf
    refine (wp_bind _ _).mpr (wp_ite (fun _ => ?_) (fun _ => ?_))
    · exact .of_data (by decide) rfl (List.suffix_cons _ _)
    · exact .of_data (by decide) rfl List.suffix_rfl

/-- The end of `CWD` if the directory is not entered. -/
theorem wp_refusal_effect {L : List Event} {log : Log} (hL : Lookups L) (hlog : log = L ++ s.log) :
    wp os (serverSendReply (ascii "550 Failed to change directory."))
      (fun _ => Affects os s args len .cwd) E ⟨s.data, log⟩ := by
  subst hlog
  refine wp_mono (wp_serverSendReply (by decide)) ?_ fun _ h => h
  rintro _ _ ⟨w, -, rfl⟩
  refine ⟨_ :: L, rfl, .kept fun _ => ?_⟩
  rintro ⟨fd, text, w', he, hcode⟩
  rcases List.mem_cons.mp he with he | he
  · obtain ⟨-, -, rfl, -⟩ := Event.write.inj he
    exact absurd hcode (by decide)
  · exact absurd (hL _ he) Bool.false_ne_true

theorem wp_commandHandlerCwd_effect :
    wp os (commandHandlerCwd args len) (fun _ => Affects os s args len .cwd) (Killed os s) s := by
  unfold commandHandlerCwd
  by_cases hlen : 0 < len
  swap
  · rw [if_neg hlen]
    exact wp_refusal_effect .nil rfl
  rw [if_pos hlen]
  refine wp_seq (wp_mono (wp_and (wp_self (resolveArg args len))
    (wp_resolveArg fun _ => PrintKills.killed)) (fun _ _ h => h) fun _ h => h.2) ?_
  rintro out s2 ⟨hrun, L, hres, rfl⟩
  cases hres with
  | failed hL =>
    rw [onOk_of_ne (by decide), pure_bind, if_neg (by decide)]
    exact wp_refusal_effect hL rfl
  | @found p r hp ha hshort =>
    obtain ⟨hr, hn⟩ := os.realpath_canonical ha
    have hlook : Lookups [.realpath p (some r)] := .cons rfl .nil
    rw [onOk_zero]
    have hset := wp_mono (@wp_serverSetCwd_found os ⟨s.data, [.realpath p (some r)] ++ s.log⟩ r hr
      hn hshort) (fun _ _ h => h) fun _ h => h.of_lookups hlook
    refine wp_seq hset ?_
    rintro retval ⟨d', _⟩ ⟨L', hd, rfl⟩
    cases hd with
    | failed hne hL' =>
      rw [if_neg hne]
      exact wp_refusal_effect (L := L' ++ [.realpath p (some r)]) (hL'.append hlook) (by simp)
    | @entered r' h =>
      rw [if_pos rfl]
      refine wp_mono (wp_serverSendReply (by decide)) ?_ fun _ h => h
      rintro _ _ ⟨w, -, rfl⟩
      have hcode : ascii "250" <+: ascii "250 Directory successfully changed." ++ crlf := by decide
      exact ⟨[_, _, _, _], rfl, .entered ⟨_, _, w, List.mem_cons_self, hcode⟩ ha hshort hrun h.1⟩

/-- A handler that changes nothing in the record but the transfer sockets. -/
theorem Affects.of_outcome {r : Int} (hc : c ≠ .cwd) (h : Outcome os s args len c r s')
    (hd : ∃ a b, s'.data = { s.data with transferSock := a, transferClientSock := b }) :
    Affects os s args len c s' := by
  obtain ⟨N, hN⟩ := h.adds.suffix
  obtain ⟨a, b, hd⟩ := hd
  refine ⟨N, hN.symm, ?_⟩
  rw [hd]
  exact .kept fun h => absurd h hc

/-- **Every handler has one of these effects**, and none if it is killed. -/
theorem wp_commandHandle_effect (h : Addressed s.data.ipAddr) :
    wp os (commandHandle c args len) (fun _ => Affects os s args len c) (Killed os s) s := by
  have houtcome : c = .pasv ∨ c = .nlst ∨ c = .retr ∨ c = .size →
      wp os (commandHandle c args len) (fun _ => Affects os s args len c) (Killed os s) s := by
    intro hc
    refine wp_mono (wp_commandHandle fun _ => h) ?_ fun _ hk => hk.2
    intro r s' ho
    refine .of_outcome (by rintro rfl; simp at hc) ho ?_
    cases ho with
    | answered ha => rcases hc with rfl | rfl | rfl | rfl <;> exact absurd ha (by decide)
    | rejected => simp at hc
    | moved => simp at hc
    | sized h => cases h <;> exact ⟨_, _, rfl⟩
    | passive h => cases h; exact ⟨_, _, rfl⟩
    | listed _ h => cases h; exact ⟨_, _, rfl⟩
    | sent _ h => cases h; exact ⟨_, _, rfl⟩
  cases c with
  | user => exact wp_commandHandlerUser_effect
  | syst => exact wp_reply_affects (by decide)
  | pwd => exact wp_commandHandlerPwd_effect
  | cwd => exact wp_commandHandlerCwd_effect
  | type => exact wp_commandHandlerType_effect
  | help => exact wp_commandHandlerHelp_effect
  | quit => exact wp_reply_affects (by decide)
  | pasv | nlst | retr | size => exact houtcome (by simp)

/-! ### What a turn changes -/

/-- `realpath` returns what it has returned before unchanged, if it returns anything. -/
def Idempotent (os : Os) : Prop := ∀ {log log' : Log} {p r r' : List Byte},
  os.realpath log p = some r → os.realpath log' r = some r' → r' = r

/-- What a turn that handles a line does to the record: only what belongs to the command, which
answers it. -/
structure Framed (os : Os) (s s' : St) (N : List Event) : Prop where
  log : s'.log = N ++ s.log
  config : s'.data.config = s.data.config
  serverSock : s'.data.serverSock = s.data.serverSock
  isServerSocketCreated : s'.data.isServerSocketCreated = s.data.isServerSocketCreated
  cwd : s'.data.cwd = s.data.cwd ∧ s'.data.cwdLen = s.data.cwdLen ∧
        (∀ args len s1, Called os s .cwd args len s1 → ¬ Attempts (ascii "250") N) ∨
      ∃ args len s1 out s2, Called os s .cwd args len s1 ∧ Attempts (ascii "250") N ∧
        resolveArg args len os s1 = (some out, s2) ∧ out.retval = 0 ∧
        (Idempotent os → cstr out.buf = s'.data.cwd ∧ out.len = s'.data.cwdLen)
  transferModeBinary : s'.data.transferModeBinary = s.data.transferModeBinary ∨
      ∃ args len s1, Called os s .type args len s1 ∧ Delivers (ascii "200") N
  session : s'.data.isConnected = s.data.isConnected ∧ s'.data.clientSock = s.data.clientSock ∨
      ∃ args len s1, Called os s .user args len s1 ∧ Attempts (ascii "530") N

/-- In one turn one handler is called at most. -/
theorem Called.unique {c' : Command} {args' : List Byte} {len' : ℕ} {s1' : St}
    (h : Called os s c args len s1) (h' : Called os s c' args' len' s1') : c = c' := by
  obtain ⟨-, -, hread, -, hfind⟩ := h
  obtain ⟨-, -, hread', -, hfind'⟩ := h'
  obtain rfl := Option.some.inj (hread.symm.trans hread')
  exact (Prod.mk.inj (Option.some.inj (hfind.symm.trans hfind'))).2

theorem Called.adds (h : Called os s c args len s1) : Adds [.line, .read] s.log s1.log := by
  obtain ⟨-, -, -, -, -⟩ := h
  exact (lineState_adds _).trans ((calledState_adds _ _ _ _).mono (by decide))

/-- A turn that changes nothing but the transfer sockets. -/
theorem Framed.of_kept {a b : Int} (hlog : s'.log = N ++ s.log)
    (hd : s'.data = { s.data with transferSock := a, transferClientSock := b })
    (hno : ∀ args len s1, Called os s .cwd args len s1 → ¬ Attempts (ascii "250") N) :
    Framed os s s' N := by
  have hconfig : s'.data.config = s.data.config := by rw [hd]; rfl
  refine ⟨hlog, hconfig, ?_, ?_, Or.inl ⟨?_, ?_, hno⟩, Or.inl ?_, Or.inl ⟨?_, ?_⟩⟩ <;> rw [hd]

/-- **What a handler does to the record is what its turn does**, up to the transfer sockets. -/
theorem Framed.of_affects {s2 : St} (hcall : Called os s c args len s1)
    (ha : Affects os s1 args len c s2) (hend : Adds [.result, .close] s2.log s'.log)
    (hd : ∃ a b, s'.data = { s2.data with transferSock := a, transferClientSock := b }) :
    ∃ N, Framed os s s' N := by
  obtain ⟨P, hP, hPk⟩ := hcall.adds
  obtain ⟨M, hM, heff⟩ := ha
  obtain ⟨H, hH, hHk⟩ := hend
  obtain ⟨a, b, hd⟩ := hd
  have hlog : s'.log = H ++ (M ++ P) ++ s.log := by rw [hH, hM, hP]; simp
  have hsub : M ⊆ H ++ (M ++ P) :=
    List.Subset.trans (List.subset_append_left M P) (List.subset_append_right H _)
  refine ⟨H ++ (M ++ P), ?_⟩
  -- a turn calls one handler: if that is not the one of `CWD`, then `CWD` was not called
  have hno : c ≠ .cwd → ∀ args' len' s1', Called os s .cwd args' len' s1' →
      ¬ Attempts (ascii "250") (H ++ (M ++ P)) := fun hc _ _ _ hcall' =>
        absurd (hcall.unique hcall') hc
  generalize hd2 : s2.data = d2 at heff hd
  cases heff with
  | kept hcwd =>
    rw [hcall.data] at hd
    refine .of_kept hlog hd fun args' len' s1' hcall' hatt => ?_
    rcases attempts_append.mp hatt with h | h
    · exact not_attempts hHk (by decide) h
    · rcases attempts_append.mp h with h | h
      · exact hcwd (hcall.unique hcall') h
      · exact not_attempts hPk (by decide) h
  | switched h =>
    rw [hcall.data] at hd
    have hconfig : s'.data.config = s.data.config := by rw [hd]; rfl
    refine ⟨hlog, hconfig, ?_, ?_, Or.inl ⟨?_, ?_, hno (by decide)⟩,
    Or.inr ⟨args, len, s1, hcall, h.mono hsub⟩,
      Or.inl ⟨?_, ?_⟩⟩ <;> rw [hd]
  | rejected h =>
    rw [hcall.data] at hd
    have hconfig : s'.data.config = s.data.config := by rw [hd]; rfl
    refine ⟨hlog, hconfig, ?_, ?_, Or.inl ⟨?_, ?_, hno (by decide)⟩, Or.inl ?_,
      Or.inr ⟨args, len, s1, hcall, h.mono hsub⟩⟩ <;> rw [hd]
  | @entered _ _ _ p r r' h hp hlen hrun hr =>
    rw [hcall.data] at hd
    have hcwd : Idempotent os → cstr (strncpy [] 0 r pathLenMax) = s'.data.cwd ∧
        r.length = s'.data.cwdLen := by
      intro hid
      obtain rfl := hid hp hr
      have hread := cstr_strncpy (os.realpath_canonical hp).2 hlen [] []
      rw [List.append_nil] at hread
      rw [hd]
      exact ⟨hread, rfl⟩
    have hconfig : s'.data.config = s.data.config := by rw [hd]; rfl
    refine ⟨hlog, hconfig, ?_, ?_, Or.inr ⟨args, len, s1, _, _,
    hcall, h.mono hsub, hrun, rfl, hcwd⟩,
      Or.inl ?_, Or.inl ⟨?_, ?_⟩⟩ <;> rw [hd]

/-- A line whose command is not in the table changes nothing. -/
theorem wp_commandsParse_unknown {buffer : List Byte} (hfind : commandFind buffer = none) :
    wp os (commandsParse buffer len) (fun _ s' => s'.data = s.data) E s := by
  unfold commandsParse
  refine (wp_bind _ _).mpr ((wp_emit _).mpr ?_)
  rw [hfind]
  refine wp_seq (wp_serverSendReply (by decide)) ?_
  rintro _ _ ⟨w, -, rfl⟩
  rfl

theorem Framed.of_unknown {bytes : List Byte} {a b : Int} (hread : received os s = some bytes)
    (hfind : commandFind (lineBuffer bytes) = none)
    (hd : s'.data = { s.data with transferSock := a, transferClientSock := b })
    (hlog : s.log <:+ s'.log) : ∃ N, Framed os s s' N := by
  obtain ⟨N, hN⟩ := hlog
  refine ⟨N, .of_kept hN.symm hd fun args len s1 hcall => ?_⟩
  obtain ⟨-, -, hread', -, hfind'⟩ := hcall
  obtain rfl := Option.some.inj (hread.symm.trans hread')
  exact absurd (hfind.symm.trans hfind') (by simp)

theorem Handled.data {r : Int} (h : Handled s r s') :
    ∃ a b, s'.data = { s.data with transferSock := a, transferClientSock := b } := by
  cases h <;> exact ⟨_, _, rfl⟩

/-- **A request changes only what belongs to its command**, and the command answers it,
whatever the system calls return and however the turn ends. -/
theorem command_frame {bytes : List Byte} (h : Reachable os argv s)
    (hc : s.data.isConnected = true) (hread : received os s = some bytes) (hline : IsLine bytes)
    (hlen : bytes.length < requestLenMax) : ∃ N, Framed os s (serverHandler os s).2 N := by
  have hi := h.sound
  have hshort : ¬ Overlong os s := by
    rintro ⟨bytes', hread', hfull, -⟩
    obtain rfl := Option.some.inj (hread.symm.trans hread')
    omega
  cases hfind : commandFind (lineBuffer bytes) with
  | some entry =>
    obtain ⟨name, c⟩ := entry
    have hcall := Called.mk (hi.created hc) hc hread hline hfind
    have hwp := hcall.wp (wp_commandHandle_effect (hcall.data ▸ hi.configured.addressed))
    unfold Prog.wp at hwp
    rcases hrun : serverHandler os s with ⟨_ | r, s'⟩ <;> rw [hrun] at hwp
    · rcases hwp with hk | hover
      · exact Framed.of_affects hcall (.of_killed hk) .refl ⟨_, _, rfl⟩
      · exact absurd hover hshort
    · obtain ⟨-, r1, s2, ha, hh⟩ := hwp
      exact Framed.of_affects hcall ha hh.adds hh.data
  | none =>
    have hwp := wp_serverHandler_line (E := fun _ => False) (hi.created hc) hc hread hline
      (wp_commandsParse_unknown hfind)
    unfold Prog.wp at hwp
    have hsuffix := serverHandler_suffix hi
    rcases hrun : serverHandler os s with ⟨_ | r, s'⟩ <;> rw [hrun] at hwp hsuffix
    · exact absurd (hwp.resolve_left id) hshort
    · obtain ⟨-, r1, s2, hd, hh⟩ := hwp
      obtain ⟨a, b, hd'⟩ := hh.data
      rw [hd] at hd'
      exact Framed.of_unknown hread hfind hd' hsuffix

/-- A machine on which the client enters the directory `/srv/docs`. -/
def docsHost : Host :=
  { nodes := [Host.srv, Host.docs],
    reads := [some (ascii "CWD docs" ++ crlf)] }

/-- The turn in which it does. -/
theorem command_frame_cwd : ∃ N, Framed docsHost.os (Host.run docsHost.os 2
    (Host.start docsHost.os Host.argv))
      (serverHandler docsHost.os
        (Host.run docsHost.os 2 (Host.start docsHost.os Host.argv))).2 N := by
  have hread : received docsHost.os (Host.run docsHost.os 2 (Host.start docsHost.os Host.argv))
      = some (ascii "CWD docs" ++ crlf) := by decide +kernel
  exact command_frame (Host.reachable_run (by decide +kernel)) (by decide +kernel) hread
    (by decide) (by decide)

end VsFtp
