import VsFtp.Sockets
import VsFtp.Commands

/-!
# The handlers without a data connection

All commands but `PASV`, `NLST` and `RETR` look something up and send one reply.
`USER` with another name than the one allowed disconnects the client behind it.

## Main definitions

* `Completion`, `ErrorReply` — the classes of replies.
* `Answered` — a handler looked something up and sent one completion reply.
* `FilePath`, `Sizing` — the outcomes of finding a file, and of `SIZE`.

## Main results

* `wp_serverSendReply` — a reply that fits is sent.
* `wp_commandHandlerSyst`, … — the handlers answer.
-/

namespace VsFtp

open CString Prog

variable {os : Os} {s : St} {E : St → Prop}

/-! ### Replies -/

/-- A reply that completes a command: its code is 2yz, 4yz or 5yz. -/
def Completion : List Byte → Bool
  | c :: d :: e :: _ =>
      (c == 50 || c == 52 || c == 53) && (48 ≤ d && d ≤ 57) && (48 ≤ e && e ≤ 57)
  | _ => false

/-- A reply that refuses a command: its code is 4yz or 5yz. -/
def ErrorReply : List Byte → Bool
  | c :: d :: e :: _ => (c == 52 || c == 53) && (48 ≤ d && d ≤ 57) && (48 ≤ e && e ≤ 57)
  | _ => false

/-- The status of a function whose last call was a `write` with result `r`. -/
def status (r : Int) : Int := if r = -1 then -1 else 0

/-- **A reply that fits is sent.** -/
theorem wp_serverSendReply_write {text : List Byte} (h : text.length + 2 < responseLenMax) :
    wp os (serverSendReply text) (fun retval s' =>
      retval = status (os.write s.log s.data.clientSock (text ++ crlf)) ∧
      s' = ⟨s.data, .write .client s.data.clientSock (text ++ crlf)
        (os.write s.log s.data.clientSock (text ++ crlf)) :: s.log⟩) E s := by
  unfold serverSendReply
  rw [if_neg (by omega), if_neg (by omega)]
  exact ⟨rfl, rfl⟩

/-- A reply that fits is written once, whatever `write` answers. -/
theorem wp_serverSendReply {text : List Byte} (h : text.length + 2 < responseLenMax) :
    wp os (serverSendReply text) (fun retval s' => ∃ r, retval = status r ∧
      s' = ⟨s.data, .write .client s.data.clientSock (text ++ crlf) r :: s.log⟩) E s :=
  wp_mono (wp_serverSendReply_write h) (fun _ _ h => ⟨_, h⟩) fun _ h => h

/-- Other replies are refused without anything being sent. -/
theorem wp_serverSendReply_long {text : List Byte} (h : responseLenMax ≤ text.length + 2) :
    wp os (serverSendReply text) (fun retval s' => retval = -1 ∧ s' = s) E s := by
  unfold serverSendReply
  refine wp_ite (fun _ => ⟨rfl, rfl⟩) (fun _ => ?_)
  rw [if_pos h]
  exact ⟨rfl, rfl⟩

-- the lemmas say all there is to know; without this the elaborator compares
-- the lengths of reply texts over and over
attribute [local irreducible] serverSendReply

/-- A handler looked something up, may have switched the transfer mode, and sent
one completion reply. -/
inductive Answered (s : St) : Int → St → Prop
  | mk {L : List Event} {text : List Byte} {r : Int} {mode : Bool} (hL : Lookups L)
      (ht : Completion text = true) :
      Answered s (status r) ⟨{ s.data with transferModeBinary := mode },
        .write .client s.data.clientSock text r :: (L ++ s.log)⟩

/-- The reply behind the lookups of a handler. -/
theorem wp_serverSendReply_answered {L : List Event} {text : List Byte} (hL : Lookups L)
    (hlen : text.length + 2 < responseLenMax) (ht : Completion (text ++ crlf) = true) :
    wp os (serverSendReply text) (Answered s) E ⟨s.data, L ++ s.log⟩ := by
  refine wp_mono (wp_serverSendReply hlen) ?_ fun _ h => h
  rintro _ _ ⟨r, rfl, rfl⟩
  exact .mk hL ht

/-- A reply of a handler that looks nothing up. -/
theorem wp_serverSendReply_answered_nil {text : List Byte}
    (hlen : text.length + 2 < responseLenMax) (ht : Completion (text ++ crlf) = true) :
    wp os (serverSendReply text) (Answered s) E s := wp_serverSendReply_answered .nil hlen ht

/-! ### Handlers without file access -/

theorem wp_commandHandlerSyst (args : List Byte) (len : ℕ) :
    wp os (commandHandlerSyst args len) (Answered s) E s :=
  wp_serverSendReply_answered_nil (by decide) (by decide)

theorem wp_commandHandlerQuit (args : List Byte) (len : ℕ) :
    wp os (commandHandlerQuit args len) (Answered s) E s :=
  wp_serverSendReply_answered_nil (by decide) (by decide)

theorem wp_commandHandlerType {args : List Byte} {len : ℕ} :
    wp os (commandHandlerType args len) (Answered s) E s := by
  -- the mode is switched once the reply is sent
  have hswitch : ∀ {text : List Byte} {mode : Bool}, text.length + 2 < responseLenMax →
      Completion (text ++ crlf) = true →
      wp os (do
        let retval ← serverSendReply text
        onOk retval (serverSetTransferMode mode)) (Answered s) E s := by
    intro text mode hlen ht
    refine wp_seq (wp_serverSendReply hlen) ?_
    rintro _ _ ⟨r, rfl, rfl⟩
    refine wp_onOk (fun h0 => ?_) (fun _ => .mk (L := []) .nil ht)
    have h : Answered s (status r) ⟨{ s.data with transferModeBinary := mode },
        .write .client s.data.clientSock (text ++ crlf) r :: s.log⟩ := .mk .nil ht
    rw [h0] at h
    exact h
  unfold commandHandlerType
  refine wp_ite (fun _ => hswitch (by decide) (by decide)) (fun _ => ?_)
  refine wp_ite (fun _ => hswitch (by decide) (by decide)) (fun _ => ?_)
  exact wp_serverSendReply_answered_nil (by decide) (by decide)

/-- A reply from a buffer: what is sent are the text and two bytes more. -/
theorem wp_sendReplyOwnBuf {who : Slot} {buf : List Byte} {size len : ℕ}
    (h : 0 < size ∧ 0 < len) :
    wp os (sendReplyOwnBuf who buf size len) (fun out s' => ∃ bytes r, out.1 = status r ∧
      (len + 2 ≤ (snprintf buf len (sizeSub size len) crlf).length →
        bytes = (snprintf buf len (sizeSub size len) crlf).take (len + 2)) ∧
      s' = ⟨s.data, .write who (s.data.sock who) bytes r :: s.log⟩) E s := by
  unfold sendReplyOwnBuf
  rw [if_pos h]
  exact ⟨_, _, rfl, fun hlen => map_getD_range hlen _, rfl⟩

/-- The reply to `HELP` in the buffer it is built in. -/
def helpReply (buf : List Byte) : List Byte :=
  snprintf (buf ++ [0]) buf.length (sizeSub helpLenMax buf.length) crlf

theorem helpReply_spec : (helpText.any fun buf => 0 < buf.length &&
    buf.length + 2 ≤ (helpReply buf).length &&
    Completion ((helpReply buf).take (buf.length + 2))) = true := by
  decide +kernel

theorem wp_commandHandlerHelp (args : List Byte) (len : ℕ) :
    wp os (commandHandlerHelp args len) (Answered s) E s := by
  have hspec := helpReply_spec
  unfold commandHandlerHelp
  revert hspec
  generalize helpText = text
  intro hspec
  cases text with
  | none => simp at hspec
  | some buf =>
    simp only [Option.any_some, Bool.and_eq_true, decide_eq_true_eq] at hspec
    obtain ⟨⟨hpos, hlen⟩, ht⟩ := hspec
    refine wp_seq (wp_sendReplyOwnBuf ⟨by decide, hpos⟩) ?_
    rintro ⟨retval, _⟩ _ ⟨bytes, r, rfl, hbytes, rfl⟩
    rw [hbytes hlen]
    exact .mk (L := []) .nil ht

/-- The name that is allowed to log in. -/
def Allowed (args : List Byte) (len : ℕ) : Prop :=
  len = (ascii "anonymous").length ∧
    strncmp (ascii "anonymous") args (ascii "anonymous").length = true

instance (args : List Byte) (len : ℕ) : Decidable (Allowed args len) :=
  inferInstanceAs (Decidable (_ ∧ _))

/-- The reply that turns a client away. -/
def refusal : List Byte := ascii "530 Login incorrect." ++ crlf

/-- `USER` answers the name that is allowed; any other client is disconnected. -/
theorem wp_commandHandlerUser {args : List Byte} {len : ℕ} :
    wp os (commandHandlerUser args len) (fun retval s' => Answered s retval s' ∨
      ¬ Allowed args len ∧ ∃ s1, Answered s retval s1 ∧ Disconnects s1 s' ∧
        ∃ w, s1.log = .write .client s.data.clientSock refusal w :: s.log) E s := by
  unfold commandHandlerUser
  refine wp_ite (fun _ => ?_) (fun hn => ?_)
  · refine wp_mono ?_ (fun _ _ h => Or.inl h) fun _ h => h
    exact wp_serverSendReply_answered_nil (by decide) (by decide)
  · refine wp_seq (wp_serverSendReply (by decide)) ?_
    rintro retval s1 ⟨w, rfl, rfl⟩
    refine wp_seq wp_serverClientDisconnect fun _ _ hd => Or.inr ⟨hn, _, ?_, hd, w, rfl⟩
    exact .mk .nil (by decide)

/-! ### The working directory -/

theorem wp_serverRealPathToServerPath_unchanged {path buf : List Byte} {pathLen size len : ℕ} :
    wp os (serverRealPathToServerPath path pathLen buf size len) (fun _ s' => s' = s) E s := by
  unfold serverRealPathToServerPath
  refine wp_ite (fun _ => ?_) (fun _ => rfl)
  refine (wp_bind _ _).mpr (wp_getData.mpr ((wp_bind _ _).mpr ((wp_peek _).mpr ?_)))
  simp only []
  split <;> rfl

/-- The path `VSFTPServerRealPathToServerPath` makes of a text that fits is short. -/
theorem wp_serverRealPathToServerPath {text : List Byte} (hlen : text.length < pathLenMax) :
    wp os (serverRealPathToServerPath (text ++ [0]) text.length [] pathLenMax 0)
      (fun out s' => (out.retval = 0 → ∀ t, (cstr (out.buf ++ t)).length < pathLenMax) ∧ s' = s)
      E s := by
  unfold serverRealPathToServerPath
  refine wp_ite (fun _ => ?_) (fun _ => ⟨fun h => absurd h (by decide), rfl⟩)
  refine (wp_bind _ _).mpr (wp_getData.mpr ((wp_bind _ _).mpr ((wp_peek _).mpr ?_)))
  simp only []
  split
  · next hfind =>
    refine ⟨fun _ t => ?_, rfl⟩
    have h := cstr_length_le_of_nul [47] t
    exact Nat.lt_of_le_of_lt h (by decide)
  · next i hfind =>
    refine ⟨fun _ t => ?_, rfl⟩
    -- the path ends at the NUL behind the text, if not earlier
    have hi : i < text.length := List.mem_range.mp (List.mem_of_find?_eq_some hfind)
    have hdrop : (text ++ [0] ++ os.behind s.log).drop i
        = text.drop i ++ 0 :: os.behind s.log := by
      rw [List.append_assoc, List.drop_append_of_le_length hi.le]
      rfl
    have hstr := cstr_length_le_of_nul (text.drop i) (os.behind s.log)
    have hshort : (cstr ((text ++ [0] ++ os.behind s.log).drop i)).length < pathLenMax := by
      rw [hdrop]
      exact Nat.lt_of_le_of_lt (hstr.trans (by simp)) hlen
    rw [cstr_strncpy (noNul_cstr _) hshort]
    exact hshort

theorem wp_commandHandlerPwd (args : List Byte) (len : ℕ) :
    wp os (commandHandlerPwd args len) (Answered s) (Killed os s) s := by
  unfold commandHandlerPwd
  refine wp_seq (wp_serverGetCwd PrintKills.killed) ?_
  rintro cwd s1 ⟨hcwd, rfl⟩
  have hpath : wp os (if cwd.retval = 0 then
        serverRealPathToServerPath cwd.buf cwd.len [] pathLenMax 0 else pure cwd)
      (fun out s' => (out.retval = 0 → ∀ t, (cstr (out.buf ++ t)).length < pathLenMax) ∧ s' = s1)
      (Killed os s1) s1 := by
    cases hcwd with
    | failed => exact ⟨fun h => absurd h (by simp), rfl⟩
    | got hfits => exact wp_serverRealPathToServerPath hfits.2
  refine wp_seq hpath ?_
  rintro out s2 ⟨hout, rfl⟩
  refine wp_ite (fun h0 => ?_) (fun _ => wp_serverSendReply_answered_nil (by decide) (by decide))
  have hlen := hout h0 (os.behind s2.log)
  refine (wp_bind _ _).mpr (wp_serverSendReply_answered_nil ?_ rfl)
  have hascii : (ascii "257 \"").length = 5 ∧ (ascii "\"").length = 1 := by decide
  have hroom : pathLenMax + 8 < responseLenMax := by decide
  simp only [List.length_append, hascii]
  omega

/-- The outcome of `CWD`: an error reply, or the directory is changed to what the
argument resolves to. -/
inductive Moved (os : Os) (s : St) (args : List Byte) (len : ℕ) : Int → St → Prop
  | stayed {L : List Event} {text : List Byte} {w : Int} (hL : Lookups L)
      (ht : ErrorReply text = true) : Moved os s args len (status w)
        ⟨s.data, .write .client s.data.clientSock text w :: (L ++ s.log)⟩
  | moved {p r : List Byte} {d' : ServerData} {L : List Event} {text : List Byte} {w : Int}
      (hp : argTarget os s args len = some p) (ha : os.realpath s.log p = some r)
      (hd : Entering os (.realpath p (some r) :: s.log) r s.data 0 d' L)
      (ht : ascii "250" <+: text) (hlen : r.length < pathLenMax) : Moved os s args len (status w)
        ⟨d', .write .client s.data.clientSock text w :: (L ++ .realpath p (some r) :: s.log)⟩

theorem Entering.clientSock {log : Log} {dir : List Byte} {d d' : ServerData} {retval : Int}
    {L : List Event} (h : Entering os log dir d retval d' L) : d'.clientSock = d.clientSock := by
  cases h <;> rfl

/-- A canonical path is absolute. -/
theorem filesystemIsAbsPath_of_canonical {p : List Byte} (h : Path.Canonical (47 : Byte) p) :
    filesystemIsAbsPath p = 0 := by
  obtain ⟨t, rfl⟩ := h.eq_cons
  rfl

/-- A path that was resolved is entered as it is read back from its buffer. -/
theorem wp_serverSetCwd_found {r : List Byte} (hr : Path.Canonical (47 : Byte) r) (hn : NoNul r)
    (hlen : r.length < pathLenMax) :
    wp os (do
      let realPath ← readString (strncpy [] 0 r pathLenMax)
      serverSetCwd realPath r.length)
      (fun retval s' => ∃ L, Entering os s.log r s.data retval s'.data L ∧ s'.log = L ++ s.log)
      (Killed os s) s := by
  refine wp_seq (wp_readString_found hn hlen) ?_
  rintro _ _ ⟨rfl, rfl⟩
  exact wp_serverSetCwd (filesystemIsAbsPath_of_canonical hr) hr.length_pos

/-- `CWD` prints the working directory to resolve a relative argument, and again
once the argument is resolved. -/
theorem wp_commandHandlerCwd {args : List Byte} {len : ℕ} :
    wp os (commandHandlerCwd args len) (Moved os s args len)
      (fun s' => (0 < len ∧ (IsRelative os s args ∨
        ∃ r, Resolves os s.log (argTarget os s args len) r)) ∧ Killed os s s') s := by
  -- the refusal, behind lookups
  have hrefuse : ∀ {retval : Int} {L : List Event} {log : Log} {E : St → Prop}, retval ≠ 0 →
      Lookups L → log = L ++ s.log →
        wp os (if retval = 0 then serverSendReply (ascii "250 Directory successfully changed.")
        else serverSendReply (ascii "550 Failed to change directory."))
        (Moved os s args len) E ⟨s.data, log⟩ := by
    rintro retval L log E hr hL rfl
    rw [if_neg hr]
    refine wp_mono (wp_serverSendReply (by decide)) ?_ fun _ h => h
    rintro _ _ ⟨w, rfl, rfl⟩
    exact .stayed hL (by decide)
  have hpath : wp os (if 0 < len then do
        let path ← readString args
        serverServerPathToRealPath path len [] pathLenMax 0 else pure ⟨-1, [], 0⟩)
      (fun out s' => ∃ L, (out.retval = 0 → 0 < len) ∧
        Resolving os s.log (argTarget os s args len) out L ∧ s' = ⟨s.data, L ++ s.log⟩)
      (fun s' => (0 < len ∧ IsRelative os s args) ∧ Killed os s s') s := by
    refine wp_ite (fun hlen => ?_) (fun hlen => ?_)
    swap
    · have hnone : argTarget os s args len = none := if_neg hlen
      rw [hnone]
      exact ⟨[], fun h => absurd h (by decide), .of_none, rfl⟩
    exact wp_mono (wp_resolveArg fun hrel hk => ⟨⟨hlen, hrel⟩, hk.killed⟩)
      (fun _ _ ⟨L, h1, h2⟩ => ⟨L, fun _ => hlen, h1, h2⟩) fun _ h => h
  unfold commandHandlerCwd
  refine wp_seq (wp_mono hpath (fun _ _ h => h) fun _ h => ⟨⟨h.1.1, Or.inl h.1.2⟩, h.2⟩) ?_
  rintro out _ ⟨L, hpos, hres, rfl⟩
  cases hres with
  | failed hL => exact hrefuse (by decide) hL rfl
  | @found p r hp ha hlen =>
    obtain ⟨hr, hn⟩ := os.realpath_canonical ha
    rw [onOk_zero]
    have hlook : Lookups [.realpath p (some r)] := .cons rfl .nil
    have hset := wp_mono (@wp_serverSetCwd_found os ⟨s.data, [.realpath p (some r)] ++ s.log⟩ r hr
      hn hlen) (fun _ _ h => h) fun _ h => h.of_lookups hlook
    refine wp_seq (wp_mono hset (fun _ _ h => h) fun _ h =>
      ⟨⟨hpos rfl, Or.inr ⟨r, p, hp, ha, hlen⟩⟩, h⟩) ?_
    rintro retval ⟨d', _⟩ ⟨L', hd, rfl⟩
    by_cases h0 : retval = 0
    · subst h0
      rw [if_pos rfl]
      refine wp_mono (wp_serverSendReply (by decide)) ?_ fun _ h => h
      rintro _ _ ⟨w, rfl, rfl⟩
      have hcode : ascii "250" <+: ascii "250 Directory successfully changed." ++ crlf := by decide
      have h := Moved.moved (w := w) hp ha hd hcode hlen
      rw [← hd.clientSock] at h
      exact h
    · -- the record is only changed if everything succeeds
      have hsame : d' = s.data := by
        cases hd with
        | failed => rfl
        | entered => exact absurd rfl h0
      subst hsame
      exact hrefuse h0 (hd.lookups.append hlook) (List.append_assoc _ _ _).symm

/-! ### Files -/

/-- The argument resolves to the regular file `r`. -/
def NamesFile (os : Os) (s : St) (args : List Byte) (len : ℕ) (r : List Byte) : Prop :=
  ∃ p, argTarget os s args len = some p ∧ os.realpath s.log p = some r ∧ r.length < pathLenMax ∧
    reportedKind os (.realpath p (some r) :: s.log) r = .regular

/-- The outcome of looking for the file of `RETR` and `SIZE`: it is the regular file
that the argument resolves to, if there is one. -/
inductive FilePath (os : Os) (s : St) (args : List Byte) (len : ℕ) :
    PathOut × Bool → List Event → Prop
  | unfound {out : PathOut × Bool} {L : List Event} (h : out.1.retval ≠ 0) (hL : Lookups L)
      (hno : ∀ r, ¬ NamesFile os s args len r) : FilePath os s args len out L
  | found {p r : List Byte} {st : Option Stat} (h : NamesFile os s args len r) :
      FilePath os s args len (⟨0, r, r.length⟩, false) [.stat r st, .realpath p (some r)]

theorem NamesFile.canonical {args r : List Byte} {len : ℕ} (h : NamesFile os s args len r) :
    Path.Canonical (47 : Byte) r := by
  obtain ⟨p, -, ha, -⟩ := h
  exact (os.realpath_canonical ha).1

theorem FilePath.lookups {args : List Byte} {len : ℕ} {out : PathOut × Bool} {L : List Event}
    (h : FilePath os s args len out L) : Lookups L := by
  cases h with
  | unfound _ hL => exact hL
  | found => exact .cons rfl (.cons rfl .nil)

/-- Finding the file of an argument. -/
theorem wp_filePath {args : List Byte} {len : ℕ} {E : St → Prop}
    (hE : 0 < len ∧ IsRelative os s args → PrintKills os s → E s) :
    wp os (filePath args len)
      (fun out s' => ∃ L, FilePath os s args len out L ∧ s' = ⟨s.data, L ++ s.log⟩) E s := by
  have hsplit : filePath args len = if 0 < len then (do
        let path ← readString args
        serverServerPathToRealPath path len [] pathLenMax 0) >>= fun out =>
          if out.retval ≠ 0 then pure (out, true)
          else do
            let realPath ← readString out.buf
            let retval ← filesystemIsFile realPath out.len
            pure (⟨retval, realPath, out.len⟩, decide (retval ≠ 0))
      else pure (⟨-1, [], 0⟩, false) := by
    simp only [bind_assoc]
    rfl
  rw [hsplit]
  by_cases hpos : 0 < len
  · rw [if_pos hpos]
    refine wp_seq (wp_resolveArg fun hrel => hE ⟨hpos, hrel⟩) ?_
    rintro out _ ⟨L, hres, rfl⟩
    cases hres with
    | failed hL hno =>
      -- nothing was resolved, so there is no file
      refine ⟨L, .unfound (by simp) hL ?_, rfl⟩
      rintro r ⟨p, hp, ha, hlen, -⟩
      exact hno r ⟨p, hp, ha, hlen⟩
    | @found p r hp ha hlen =>
      obtain ⟨hr, hn⟩ := os.realpath_canonical ha
      refine wp_seq (wp_readString_found hn hlen) ?_
      rintro _ _ ⟨rfl, rfl⟩
      refine wp_seq (wp_filesystemHasKind hr.length_pos) ?_
      rintro _ _ ⟨⟨rfl, hkind⟩ | ⟨rfl, hkind⟩, rfl⟩
      · exact ⟨_, .found ⟨p, hp, ha, hlen, hkind⟩, rfl⟩
      · -- it is no regular file
        refine ⟨_, .unfound (by simp) (.cons rfl (.cons rfl .nil)) ?_, rfl⟩
        rintro r' ⟨p', hp', ha', -, hkind'⟩
        obtain rfl := Option.some.inj (hp.symm.trans hp')
        obtain rfl := Option.some.inj (ha.symm.trans ha')
        exact hkind hkind'
  · rw [if_neg hpos]
    refine ⟨[], .unfound (by simp) .nil ?_, rfl⟩
    rintro r ⟨p, hp, -⟩
    have hnone : argTarget os s args len = none := if_neg hpos
    simp [hnone] at hp

/-- The outcome of `SIZE`: an error reply, or the size of the regular file that was
found. -/
inductive Sizing (os : Os) (s : St) (args : List Byte) (len : ℕ) : Int → St → Prop
  | refused {L : List Event} {text : List Byte} {w : Int} (hL : Lookups L)
      (ht : ErrorReply text = true) : Sizing os s args len (status w)
        ⟨s.data, .write .client s.data.clientSock text w :: (L ++ s.log)⟩
  | reported {p r : List Byte} {st : Option Stat} {st' : Stat} {w : Int}
      (h : NamesFile os s args len r) :
      Sizing os s args len (status w) ⟨s.data, [.write .client s.data.clientSock
          (ascii "213 " ++ decimal st'.size ++ crlf) w, .stat r (some st'), .stat r st,
          .realpath p (some r)] ++ s.log⟩

theorem wp_commandHandlerSize {args : List Byte} {len : ℕ} :
    wp os (commandHandlerSize args len) (Sizing os s args len)
      (fun s' => (0 < len ∧ IsRelative os s args) ∧ Killed os s s') s := by
  -- an error reply behind lookups
  have hrefuse : ∀ {L : List Event} {text : List Byte} {E : St → Prop}, Lookups L →
      text.length + 2 < responseLenMax → ErrorReply (text ++ crlf) = true →
      wp os (serverSendReply text) (Sizing os s args len) E ⟨s.data, L ++ s.log⟩ := by
    intro L text E hL hlen ht
    refine wp_mono (wp_serverSendReply hlen) ?_ fun _ h => h
    rintro _ _ ⟨w, rfl, rfl⟩
    exact .refused hL ht
  unfold commandHandlerSize
  refine wp_seq (wp_filePath fun h hk => ⟨h, hk.killed⟩) ?_
  rintro ⟨out, isFileError⟩ _ ⟨L, hpath, rfl⟩
  cases hpath with
  | unfound h hL =>
    simp only [if_neg h]
    cases isFileError with
    | true => exact hrefuse hL (by decide) (by decide)
    | false => exact hrefuse hL (by decide) (by decide)
  | @found p r st h =>
    refine (wp_bind _ _).mpr ((wp_call _ _).mpr ?_)
    split
    · next st' hst =>
      rw [hst]
      refine wp_mono (wp_serverSendReply ?_) ?_ fun _ h => h
      · have hdigits := decimal_length_le st'.size_lt
        have hascii : (ascii "213 ").length = 4 := by decide
        rw [List.length_append, hascii]
        unfold responseLenMax
        omega
      · rintro _ _ ⟨w, rfl, rfl⟩
        exact .reported h
    · next hst =>
      rw [hst]
      exact hrefuse (L := [.stat r none, .stat r st, .realpath p (some r)])
        (.cons rfl (.cons rfl (.cons rfl .nil))) (by decide) (by decide)

/-- A code stays the code of the reply it starts. -/
theorem Completion.of_prefix {code text : List Byte} (hc : Completion code = true)
    (h : code <+: text) : Completion text = true := by
  obtain ⟨t, rfl⟩ := h
  match code with
  | _ :: _ :: _ :: _ => exact hc

theorem Completion.of_errorReply {text : List Byte} (h : ErrorReply text = true) :
    Completion text = true := by
  match text with
  | c :: d :: e :: _ =>
    simp only [ErrorReply, Completion, Bool.and_eq_true, Bool.or_eq_true] at h ⊢
    exact ⟨⟨Or.imp_left Or.inr h.1.1, h.1.2⟩, h.2⟩

/-- The final reply of a handler whose status tells which reply it is. -/
theorem Completion.of_status {code text : List Byte} {retval : Int} (hc : Completion code = true)
    (h : retval = 0 ∧ code <+: text ∨ retval ≠ 0 ∧ ErrorReply text = true) :
    Completion text = true := by
  rcases h with ⟨-, hcode⟩ | ⟨-, herr⟩
  · exact Completion.of_prefix hc hcode
  · exact Completion.of_errorReply herr

theorem Sizing.answered {args : List Byte} {len : ℕ} {retval : Int} {s' : St}
    (h : Sizing os s args len retval s') : Answered s retval s' := by
  cases h with
  | refused hL ht => exact .mk hL (Completion.of_errorReply ht)
  | @reported p r st st' w =>
    exact .mk (L := [.stat r (some st'), .stat r st, .realpath p (some r)])
      (.cons rfl (.cons rfl (.cons rfl .nil))) rfl

end VsFtp
