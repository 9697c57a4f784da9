import Mathlib.Data.List.Find
import VsFtp.Frames
import VsFtp.Views

/-!
# A server that is true to its session

Every handler is gone through once, in the order of the source, with a triple: what it says is true
in the view, what it asks the file system is what its command asks for, and its record agrees with
the view again when it is done.

## Main definitions

* `Passed` — the array and the length that a handler is called with, and the arguments they stand
  for.
* `At` — a command is handled, and the record agrees with the view.

## Main results

* `keeps_commandHandle` — the handlers, each with its triple.
* `keeps_serverHandler` — a call of `VSFTPServerHandler`.
* `session_replayed` — **the log determines the session**, in every run and whatever ends it.
* `replies_true` — **every reply is true.**
* `questions_justified` — **the file system is asked about nothing else.**
-/

namespace VsFtp

open CString Prog

attribute [local irreducible] serverSendReply helpText

variable {os : Os} {s : St} {root : List Byte} {argv : Argv} {R : ServerData → View → Prop}
  {c : Command} {array bytes : List Byte} {len : ℕ}

/-! ### Replies -/

/-- A command is handled, and the record agrees with the view. -/
abbrev At (root : List Byte) (argv : Argv) (c : Command) (bytes : List Byte) :
    ServerData → View → Prop := Attends root argv true (some (c, bytes))

/-- The array and the length that a handler is called with stand for the arguments that its command
was given. -/
structure Passed (array : List Byte) (len : ℕ) (bytes : List Byte) : Prop where
  take_eq : array.take len = bytes
  length_eq : bytes.length = len
  cstr_eq : 0 < len → ∀ t, cstr (array ++ t) = cstr bytes

/-- **A reply that fits is sent**, and the view is told. -/
theorem keeps_serverSendReply {text : List Byte} {Q : Int → ServerData → View → Prop}
    (hlen : text.length + 2 < responseLenMax)
    (htells : ∀ d v, R d v → v.tells root argv.ipAddr text)
    (hQ : ∀ d v w, R d v → Q (status w) d (v.told (text ++ crlf) w)) :
    Keeps os root argv R (serverSendReply text) Q := by
  intro s hlog h
  refine wp_mono (wp_serverSendReply hlen) ?_ fun _ h => h
  rintro _ _ ⟨r, rfl, rfl⟩
  refine ⟨hlog.cons ⟨text, rfl, ?_, htells _ _ h⟩, hQ _ _ r h⟩
  have hcrlf : crlf.length = 2 := rfl
  rw [List.length_append, hcrlf]
  exact hlen

/-- A reply to a command other than `CWD` and `TYPE` does not change the view. -/
theorem View.told_of_command {v : View} {text : List Byte} {w : Int} (hv : v.connected = true)
    (hc : v.command = some (c, bytes)) (hcwd : c ≠ .cwd) (htype : c ≠ .type) :
    v.told text w = v := by
  unfold View.told
  rw [hv, if_neg (by decide), hc]
  cases c <;> first | rfl | contradiction

theorem View.says_of_command {ip text : List Byte} {v : View} (hv : v.connected = true)
    (hc : v.command = some (c, bytes)) (h : c.tells root ip bytes v text) :
    v.tells root ip text := by
  unfold View.tells
  rw [hv, if_neg (by decide), hc]
  exact h

/-- **A reply of such a command**, whether it fits or not. -/
theorem keeps_reply {text : List Byte} (hcwd : c ≠ .cwd) (htype : c ≠ .type)
    (hR : ∀ d v, R d v → At root argv c bytes d v ∧ c.tells root argv.ipAddr bytes v text) :
    Keeps os root argv R (serverSendReply text) (fun _ => R) := by
  by_cases hlen : text.length + 2 < responseLenMax
  · apply keeps_serverSendReply hlen
    · intro d v h
      exact View.says_of_command (hR d v h).1.connected (hR d v h).1.command (hR d v h).2
    · intro d v w h
      rw [View.told_of_command (hR d v h).1.connected (hR d v h).1.command hcwd htype]
      exact h
  · intro s hlog h
    refine wp_mono (wp_serverSendReply_long (Nat.le_of_not_lt hlen)) ?_ fun _ h => h
    rintro _ _ ⟨-, rfl⟩
    exact ⟨hlog, h⟩

/-- A reply that is true in any view. -/
theorem keeps_reply_of {text : List Byte} (hcwd : c ≠ .cwd) (htype : c ≠ .type)
    (h : ∀ v, c.tells root argv.ipAddr bytes v text) :
    Keeps os root argv (At root argv c bytes) (serverSendReply text)
      (fun _ => At root argv c bytes) := keeps_reply hcwd htype fun _ v hv => ⟨hv, h v⟩

/-! ### Handlers without file access -/

theorem keeps_commandHandlerSyst (array : List Byte) (len : ℕ) :
    Keeps os root argv (At root argv .syst bytes) (commandHandlerSyst array len)
      (fun _ => At root argv .syst bytes) :=
  keeps_reply_of (by decide) (by decide) fun _ => rfl

theorem keeps_commandHandlerQuit (array : List Byte) (len : ℕ) :
    Keeps os root argv (At root argv .quit bytes) (commandHandlerQuit array len)
      (fun _ => At root argv .quit bytes) :=
  keeps_reply_of (by decide) (by decide) fun _ => rfl

/-- The name that is allowed to log in. -/
theorem Passed.allowed_iff (h : Passed array len bytes) :
    Allowed array len ↔ bytes = ascii "anonymous" := by
  have hn : NoNul (ascii "anonymous") := by decide
  unfold Allowed
  rw [strncmp_comm, strncmp_eq_true_iff hn]
  constructor
  · rintro ⟨rfl, t, rfl⟩
    rw [← h.take_eq, List.take_left' rfl]
  · rintro rfl
    refine ⟨h.length_eq.symm, ?_⟩
    rw [← h.take_eq]
    exact List.take_prefix _ _

theorem keeps_commandHandlerUser (hp : Passed array len bytes) :
    Keeps os root argv (At root argv .user bytes) (commandHandlerUser array len)
      (fun _ => Matches root argv) := by
  apply Tracks.ite
  · intro hallowed
    refine (keeps_reply_of (by decide) (by decide) fun v => ?_).weaken fun _ _ _ h => h.matches
    exact (if_pos (hp.allowed_iff.mp hallowed)).symm
  · intro hother
    apply Tracks.bind (Q := fun _ => At root argv .user bytes)
    · refine keeps_reply_of (by decide) (by decide) fun v => ?_
      exact (if_neg fun h => hother (hp.allowed_iff.mpr h)).symm
    intro retval
    apply Tracks.bind (keeps_serverClientDisconnect.strengthen fun _ _ h => h.matches)
    intro _
    exact .pure fun _ _ h => h

/-- The text of `HELP` is sent as it is. -/
theorem helpReply_eq : (helpText.all fun buf => 0 < buf.length &&
    buf.length + 2 ≤ (helpReply buf).length && buf.length + 2 < responseLenMax &&
    (helpReply buf).take (buf.length + 2) == buf ++ crlf) = true := by
  decide +kernel

theorem keeps_commandHandlerHelp (array : List Byte) (len : ℕ) :
    Keeps os root argv (At root argv .help bytes) (commandHandlerHelp array len)
      (fun _ => At root argv .help bytes) := by
  have hspec := helpReply_eq
  unfold commandHandlerHelp
  cases htext : helpText with
  | none => exact .pure fun _ _ h => h
  | some buf =>
    rw [htext] at hspec
    simp only [Option.all_some, Bool.and_eq_true, decide_eq_true_eq, beq_iff_eq] at hspec
    obtain ⟨⟨⟨hpos, hlen⟩, hfits⟩, hsent⟩ := hspec
    apply Tracks.bind (Q := fun _ => At root argv .help bytes)
    · intro s hlog h
      refine wp_mono (wp_sendReplyOwnBuf ⟨by decide, hpos⟩) ?_ fun _ h => h
      rintro ⟨retval, _⟩ _ ⟨sent, r, rfl, hbytes, rfl⟩
      obtain rfl := (hbytes hlen).trans hsent
      refine ⟨hlog.cons ⟨buf, rfl, ?_, ?_⟩, ?_⟩
      · rw [List.length_append]
        exact hfits
      · exact View.says_of_command h.connected h.command htext
      · show At root argv .help bytes s.data (((honesty root argv).phase s.log).told _ r)
        rw [View.told_of_command h.connected h.command (by decide) (by decide)]
        exact h
    · rintro ⟨retval, _⟩
      exact .pure fun _ _ h => h

/-- The arguments of `TYPE` that name a mode. -/
theorem Passed.eq_singleton_iff (h : Passed array len bytes) {b : Byte} :
    len = 1 ∧ array.headD 0 = b ↔ bytes = [b] := by
  constructor
  · rintro ⟨rfl, rfl⟩
    have hlen := h.length_eq
    rw [← h.take_eq] at hlen ⊢
    cases array with
    | nil => exact absurd hlen (by decide)
    | cons a array => rfl
  · rintro rfl
    obtain rfl : 1 = len := h.length_eq
    refine ⟨rfl, ?_⟩
    have htake := h.take_eq
    cases array with
    | nil => exact absurd htake (by simp)
    | cons a array => exact (List.cons.inj htake).1

/-- What is told by a reply to `TYPE`. -/
theorem View.told_of_type {v : View} {text : List Byte} {w : Int} (hv : v.connected = true)
    (hc : v.command = some (.type, bytes)) : v.told text w =
      if w = -1 then v
      else if ascii "200 Switching to Binary" <+: text then { v with binary := true }
      else if ascii "200 Switching to ASCII" <+: text then { v with binary := false }
      else v := by
  unfold View.told
  rw [hv, if_neg (by decide), hc]

/-- The mode is switched once the reply that says so is sent. -/
theorem keeps_switch {text : List Byte} {mode : Bool} (hlen : text.length + 2 < responseLenMax)
    (htells : ∀ v, Command.type.tells root argv.ipAddr bytes v text)
    (htold : ∀ (v : View) w, v.connected = true → v.command = some (.type, bytes) →
      v.told (text ++ crlf) w = if w = -1 then v else { v with binary := mode }) :
    Keeps os root argv (At root argv .type bytes) (do
      let retval ← serverSendReply text
      onOk retval (serverSetTransferMode mode)) (fun _ => At root argv .type bytes) := by
  apply Tracks.bind (Q := fun retval d v => At root argv .type bytes
    (if retval = 0 then { d with transferModeBinary := mode } else d) v)
  · apply keeps_serverSendReply hlen
    · intro d v h
      exact View.says_of_command h.connected h.command (htells v)
    · intro d v w h
      rw [htold v w h.connected h.command, status]
      by_cases hw : w = -1
      · rw [if_pos hw, if_pos hw, if_neg (by decide)]
        exact h
      · rw [if_neg hw, if_neg hw, if_pos rfl]
        exact { h with
          configured := h.configured.of_config rfl, located := h.located.of_config rfl
          binary := rfl }
  · intro retval
    apply Tracks.onOk
    · rintro rfl
      exact .bind (.modifyData fun _ _ h => h) fun _ => .pure fun _ _ h => h
    · intro hr d v h
      rw [if_neg hr] at h
      exact h

theorem keeps_commandHandlerType (hp : Passed array len bytes) :
    Keeps os root argv (At root argv .type bytes) (commandHandlerType array len)
      (fun _ => At root argv .type bytes) := by
  have hnamed : ∀ {a b : Byte}, (len = 1 ∧ (array.headD 0 = a ∨ array.headD 0 = b)) ↔
      (bytes = [a] ∨ bytes = [b]) := by
    intro a b
    rw [and_or_left, hp.eq_singleton_iff, hp.eq_singleton_iff]
  unfold commandHandlerType
  apply Tracks.ite
  · intro hbinary
    have hmode : typeMode bytes = some true := if_pos (hnamed.mp hbinary)
    apply keeps_switch (by decide)
    · intro v
      simp only [Command.tells, hmode]
    · intro v w hv hc
      have hsaid : ascii "200 Switching to Binary" <+:
        ascii "200 Switching to Binary mode." ++ crlf := by
        decide
      rw [View.told_of_type hv hc, if_pos hsaid]
  intro hbinary
  apply Tracks.ite
  · intro hascii
    have hmode : typeMode bytes = some false :=
      (if_neg fun h => hbinary (hnamed.mpr h)).trans (if_pos (hnamed.mp hascii))
    apply keeps_switch (by decide)
    · intro v
      simp only [Command.tells, hmode]
    · intro v w hv hc
      have hnot : ¬ ascii "200 Switching to Binary" <+:
        ascii "200 Switching to ASCII mode." ++ crlf := by
        decide
      have hsaid : ascii "200 Switching to ASCII" <+:
        ascii "200 Switching to ASCII mode." ++ crlf := by
        decide
      rw [View.told_of_type hv hc, if_neg hnot, if_pos hsaid]
  intro hascii
  have hmode : typeMode bytes = none :=
    (if_neg fun h => hbinary (hnamed.mpr h)).trans (if_neg fun h => hascii (hnamed.mpr h))
  apply keeps_serverSendReply (by decide)
  · intro d v h
    apply View.says_of_command h.connected h.command
    simp only [Command.tells, hmode]
  · intro d v w h
    have hnot : ∀ mode ∈ [ascii "200 Switching to Binary", ascii "200 Switching to ASCII"],
        ¬ mode <+: ascii "504 Command not implemented for that parameter." ++ crlf := by decide
    rw [View.told_of_type h.connected h.command, if_neg (hnot _ (by simp)),
      if_neg (hnot _ (by simp)),
      ite_self]
    exact h

/-! ### `PASV` -/

/-- The address in the record is the one of the command line. -/
theorem Located.addressText (h : Located argv.ipAddr s.data) :
    addressText os s = argv.ipAddr := by
  rw [VsFtp.addressText, h.stored]
  exact cstr_strncpy (noNul_of_inetPton h.valid) (length_lt_of_inetPton h.valid) [] _

theorem keeps_pasvEntering :
    Keeps os root argv (At root argv .pasv bytes) (pasvEntering pasvPortNumber)
      (fun _ => At root argv .pasv bytes) := by
  intro s hlog h
  refine wp_mono (wp_pasvEntering h.configured.addressed) ?_ fun _ h => h
  rintro _ _ ⟨w, rfl, rfl⟩
  rw [h.located.addressText]
  refine ⟨hlog.cons ⟨_, rfl, ?_, ?_⟩, ?_⟩
  · have hcrlf : crlf.length = 2 := rfl
    have hlen := length_lt_of_inetPton h.located.valid
    rw [List.length_append, hcrlf]
    refine pasvReply_length_lt ?_ _ _
    rw [commas, List.length_map]
    exact hlen
  · exact View.says_of_command h.connected h.command (Or.inl rfl)
  · show At root argv .pasv bytes s.data (((honesty root argv).phase s.log).told _ w)
    rw [View.told_of_command h.connected h.command (by decide) (by decide)]
    exact h

theorem keeps_commandHandlerPasv (array : List Byte) (len : ℕ) :
    Keeps os root argv (At root argv .pasv bytes) (commandHandlerPasv array len)
      (fun _ => At root argv .pasv bytes) := by
  have hfails : Keeps os root argv (At root argv .pasv bytes)
      (serverSendReply (ascii "425 Cannot open data connection."))
      (fun _ => At root argv .pasv bytes) :=
    keeps_reply_of (by decide) (by decide) fun _ => Or.inr rfl
  apply Tracks.bind (keeps_closeSocket fun _ _ h => h.setSock .transferClient (-1))
  intro _
  apply Tracks.bind (keeps_closeSocket fun _ _ h => h.setSock .transfer (-1))
  intro _
  apply Tracks.bind (Q := fun _ => At root argv .pasv bytes)
  · apply Tracks.bind_getData
    intro a
    apply Tracks.strengthen (R := At root argv .pasv bytes)
    swap
    · intro d v h
      exact h.2
    apply Tracks.ite
    · intro _
      apply keeps_createPassiveSocket
      intro d v fd fd' h
      -- a client is connected, so the socket is not the one the server listens on
      have hview : (Event.socket fd).view v = v := if_pos h.connected
      rw [hview]
      exact h.setSock .transfer fd'
    · intro _
      exact .pure fun _ _ h => h
  intro retval
  exact .ite (fun _ => keeps_pasvEntering) fun _ => hfails

/-! ### `PWD` -/

/-- The output of `VSFTPServerRealPathToServerPath`, for the working directory. -/
def Shown (root : List Byte) (out : PathOut) (v : View) : Prop := out.retval = 0 →
  ∀ t dir, formatText v.cwd v.cwd.length = some dir → cstr (out.buf ++ t) = shownPath root dir

theorem keeps_commandHandlerPwd (array : List Byte) (len : ℕ) :
    Keeps os root argv (At root argv .pwd bytes) (commandHandlerPwd array len)
      (fun _ => At root argv .pwd bytes) := by
  apply Tracks.bind (keeps_serverGetCwd fun _ _ h => h.matches)
  intro cwd
  apply Tracks.bind (Q := fun out d v => At root argv .pwd bytes d v ∧ Shown root out v)
  · apply Tracks.ite
    swap
    · intro hno
      exact .pure fun _ _ h => ⟨h.1, fun h0 => absurd h0 hno⟩
    intro hok s hlog h
    obtain ⟨dir, hprint, hlen, rfl⟩ := h.2 hok
    rw [h.1.cwd, h.1.cwdLen] at hprint
    cases htext : formatText ((honesty root argv).phase s.log).cwd
      ((honesty root argv).phase s.log).cwd.length with
    | none =>
      refine wp_mono wp_serverRealPathToServerPath_unchanged ?_ fun _ h => h
      rintro out _ rfl
      refine ⟨hlog, h.1, fun _ t dir hdir => ?_⟩
      rw [htext] at hdir
      exact absurd hdir (by simp)
    | some text =>
      obtain rfl := hprint text htext
      have hn : NoNul dir := NoNul.formatText h.1.noNul htext
      refine wp_mono (wp_serverRealPathToServerPath_shown hn hlen) ?_ fun _ h => h
      rintro out _ ⟨-, hout, rfl⟩
      refine ⟨hlog, h.1, fun h0 t dir' hdir => ?_⟩
      rw [htext] at hdir
      obtain rfl := Option.some.inj hdir
      rw [hout h0 t, h.1.rootPath]
  intro out
  apply Tracks.ite
  · intro hok
    apply Tracks.bind keeps_readString
    intro path
    apply Tracks.weaken (Q := fun _ d v => At root argv .pwd bytes d v ∧
      ∀ dir, formatText v.cwd v.cwd.length = some dir → path = shownPath root dir)
    swap
    · intro _ d v h
      exact h.1
    apply Tracks.strengthen (R := fun d v => At root argv .pwd bytes d v ∧
      ∀ dir, formatText v.cwd v.cwd.length = some dir → path = shownPath root dir)
    · apply keeps_reply (c := .pwd) (by decide) (by decide)
      rintro d v ⟨h, hpath⟩
      exact ⟨h, Or.inl ⟨path, hpath, rfl⟩⟩
    · rintro d v ⟨⟨h, hout⟩, t, rfl⟩
      exact ⟨h, fun dir hdir => hout hok t dir hdir⟩
  · intro _
    have hfails : Keeps os root argv (At root argv .pwd bytes)
        (serverSendReply (ascii "550 Failed to get directory."))
        (fun _ => At root argv .pwd bytes) :=
      keeps_reply_of (by decide) (by decide) fun _ => Or.inr rfl
    exact hfails.strengthen fun _ _ h => h.1

/-! ### Paths -/

/-- An argument is resolved. -/
theorem keeps_resolveArg (hc : c.takesPath = true) (hp : Passed array len bytes) (hlen : 0 < len) :
    Keeps os root argv (At root argv c bytes) (do
      let path ← readString array
      serverServerPathToRealPath path len [] pathLenMax 0)
      (fun out d v => At root argv c bytes d v ∧ Found out v) := by
  apply Tracks.bind keeps_readString
  intro path
  apply Tracks.assume (fun _ _ h => h.2)
  rintro ⟨t, rfl⟩
  rw [hp.cstr_eq hlen t]
  exact (keeps_serverServerPathToRealPath hc).strengthen fun _ _ h => h.1

/-- A path that did not resolve has nothing to be found. -/
theorem found_failed {buf : List Byte} {n : ℕ} {v : View} : Found ⟨-1, buf, n⟩ v :=
  fun h => absurd h (by simp)

/-- What is told by a reply to `CWD`. -/
theorem View.told_of_cwd {v : View} {text : List Byte} {w : Int} (hv : v.connected = true)
    (hc : v.command = some (.cwd, bytes)) : v.told text w =
      if ascii "250" <+: text then { v with cwd := v.resolved } else v := by
  unfold View.told
  rw [hv, if_neg (by decide), hc]

theorem keeps_commandHandlerCwd (hp : Passed array len bytes) :
    Keeps os root argv (At root argv .cwd bytes) (commandHandlerCwd array len)
      (fun _ => At root argv .cwd bytes) := by
  apply Tracks.bind (Q := fun out d v => At root argv .cwd bytes d v ∧ Found out v)
  · apply Tracks.ite
    · intro hlen
      exact keeps_resolveArg rfl hp hlen
    · intro _
      exact .pure fun _ _ h => ⟨h, found_failed⟩
  intro out
  apply Tracks.bind (Q := Enters root argv true (some (.cwd, bytes)))
  · apply Tracks.onOk
    · intro hok
      apply keeps_found hok
      rintro r hr rfl
      apply Tracks.bind (keeps_readString_found hr)
      intro realPath
      apply Tracks.assume (fun _ _ h => h.2)
      rintro rfl
      apply keeps_serverSetCwd (filesystemIsAbsPath_of_canonical hr.canonical)
      rintro d v ⟨⟨h, rfl⟩, -⟩
      exact ⟨h, Or.inl rfl⟩
    · intro hno d v h
      exact h.1.enters hno
  intro retval
  apply Tracks.ite
  · rintro rfl
    apply keeps_serverSendReply (by decide)
    · intro d v h
      exact View.says_of_command h.connected h.command (Or.inl rfl)
    · intro d v w h
      have hsaid : ascii "250" <+: ascii "250 Directory successfully changed." ++ crlf := by decide
      rw [View.told_of_cwd h.connected h.command, if_pos hsaid]
      exact h.attends_entered
  · intro hno
    apply keeps_serverSendReply (by decide)
    · intro d v h
      exact View.says_of_command h.connected h.command (Or.inr rfl)
    · intro d v w h
      have hnot : ¬ ascii "250" <+: ascii "550 Failed to change directory." ++ crlf := by decide
      rw [View.told_of_cwd h.connected h.command, if_neg hnot]
      exact h.attends_stayed hno

/-- **The file of `RETR` and `SIZE`** is the path that was resolved. -/
theorem keeps_filePath (hc : c.takesPath = true) (hp : Passed array len bytes) :
    Keeps os root argv (At root argv c bytes) (filePath array len)
      (fun out d v => At root argv c bytes d v ∧
        (out.1.retval = 0 → 0 < len ∧ out.1.buf = v.resolved)) := by
  apply Tracks.ite
  swap
  · intro _
    exact .pure fun _ _ h => ⟨h, fun h => absurd h (by decide)⟩
  intro hlen
  rw [← bind_assoc]
  apply Tracks.bind (keeps_resolveArg hc hp hlen)
  intro out
  apply Tracks.ite
  · intro hno
    exact .pure fun _ _ h => ⟨h.1, fun h0 => absurd h0 hno⟩
  intro hok
  apply keeps_found (Decidable.not_not.mp hok)
  rintro r hr rfl
  apply Tracks.bind (keeps_readString_found hr)
  intro realPath
  apply Tracks.assume (fun _ _ h => h.2)
  rintro rfl
  apply Tracks.bind (Q := fun _ d v => At root argv c bytes d v ∧ v.resolved = realPath)
  · apply Tracks.strengthen (R := fun d v => At root argv c bytes d v ∧ v.resolved = realPath)
    · apply keeps_filesystemHasKind
      · intro d v st h
        exact ⟨h.1.looks v.resolved st, h.2⟩
      · intro d v h
        exact h.2.symm
    · intro d v h
      exact h.1
  intro retval
  exact .pure fun _ _ h => ⟨h.1, fun _ => ⟨hlen, h.2.symm⟩⟩

theorem keeps_commandHandlerSize (hp : Passed array len bytes) :
    Keeps os root argv (At root argv .size bytes) (commandHandlerSize array len)
      (fun _ => At root argv .size bytes) := by
  have hfails : ∀ {text : List Byte}, text = ascii "550 File not found." ∨ text = localError →
      ∀ {R : ServerData → View → Prop}, (∀ d v, R d v → At root argv .size bytes d v) →
      Keeps os root argv R (serverSendReply text) (fun _ => At root argv .size bytes) := by
    intro text htext R hR
    apply Tracks.strengthen (keeps_reply_of (by decide) (by decide) ?_) hR
    exact fun _ => Or.inr htext
  apply Tracks.bind (keeps_filePath rfl hp)
  rintro ⟨out, isFileError⟩
  apply Tracks.ite
  swap
  · intro _
    refine hfails ?_ fun d v h => h.1
    cases isFileError with
    | true => exact Or.inl rfl
    | false => exact Or.inr rfl
  intro hok
  apply Tracks.bind (Q := fun st d v => At root argv .size bytes d v ∧ v.stated = st)
  · apply Tracks.call
    rintro log d v ⟨h, hbuf⟩
    exact ⟨(hbuf hok).2, h.looks v.resolved _, rfl⟩
  intro st
  cases st with
  | none => exact hfails (Or.inr rfl) fun d v h => h.1
  | some st =>
    apply Tracks.weaken (Q := fun _ d v => At root argv .size bytes d v ∧ v.stated = some st)
    · apply keeps_reply (c := .size) (by decide) (by decide)
      intro d v h
      exact ⟨h.1, Or.inl ⟨st, h.2, rfl⟩⟩
    · intro _ d v h
      exact h.1

/-! ### Transfers -/

theorem keeps_serverAcceptTransferClientConnection
    (hR : ∀ d v fd, R d v → R (d.setSock .transferClient fd) v) :
    Keeps os root argv R serverAcceptTransferClientConnection (fun _ => R) := by
  apply Tracks.bind_getData
  intro a
  apply Tracks.strengthen (R := R)
  swap
  · intro d v h
    exact h.2
  apply Tracks.ite
  swap
  · intro _
    exact .pure fun _ _ h => h
  intro _
  apply Tracks.bind (keeps_call (by intros; trivial) (by intros; rfl))
  intro fd
  apply Tracks.ite
  · intro _
    exact .bind (.modifyData fun d v h => hR d v fd h) fun _ => .pure fun _ _ h => h
  · intro _
    exact .pure fun _ _ h => h

theorem keeps_sendfileLoop {fd : Int} (hR : ∀ d v, R d v → Matches root argv d v) (fuel : ℕ)
    (count numSent : ℕ) (retval : Int) :
    Keeps os root argv R (sendfileLoop fd fuel count numSent retval) (fun _ => R) := by
  induction fuel generalizing count numSent retval with
  | zero =>
    unfold sendfileLoop
    exact .ite (fun _ => .stop hR) fun _ => .pure fun _ _ h => h
  | succ fuel ih =>
    unfold sendfileLoop
    apply Tracks.ite
    swap
    · intro _
      exact .pure fun _ _ h => h
    intro _
    apply Tracks.bind (keeps_call (by intros; trivial) (by intros; rfl))
    intro numRead
    cases numRead with
    | none => exact .pure fun _ _ h => h
    | some fileBuf =>
      cases fileBuf with
      | nil => exact .pure fun _ _ h => h
      | cons b fileBuf =>
        apply Tracks.bind_getData
        intro a
        apply Tracks.strengthen (R := R)
        swap
        · intro d v h
          exact h.2
        apply Tracks.bind (Q := fun _ => R)
        · apply Tracks.bind (keeps_call (by intros; trivial) (by intros; rfl))
          intro lsend
          exact .ite (fun _ => .pure fun _ _ h => h) fun _ => .pure fun _ _ h => h
        rintro ⟨retval, numSent⟩
        apply Tracks.ite
        · intro _
          exact .pure fun _ _ h => h
        intro _
        apply Tracks.ite
        · intro _
          exact .pure fun _ _ h => h
        · intro _
          exact ih _ _ _

/-- **Only the file that was resolved is opened.** -/
theorem keeps_serverSendfileTransfer {path : List Byte} {n : ℕ}
    (hR : ∀ d v, R d v → Matches root argv d v ∧ path = v.resolved) :
    Keeps os root argv R (serverSendfileTransfer path n) (fun _ => R) := by
  have hask : ∀ {ρ : Type} {answer : Os → Log → ρ} {record : ρ → Event},
      (∀ r v, path = v.resolved → (record r).honest root argv.ipAddr v) →
      (∀ r v, (record r).view v = v) →
      Keeps os root argv R (call answer record) (fun _ => R) := by
    intro ρ answer record hg hv
    apply Tracks.call
    intro log d v h
    refine ⟨hg _ v (hR d v h).2, ?_⟩
    show R d (Event.view _ v)
    rw [hv]
    exact h
  apply Tracks.bind (Q := fun _ => R)
  · apply Tracks.ite
    swap
    · intro _
      exact .pure fun _ _ h => h
    intro _
    apply Tracks.bind (hask (by intro _ _ h; exact h) (by intros; rfl))
    intro retval
    apply Tracks.ite
    swap
    · intro _
      exact .pure fun _ _ h => h
    intro _
    apply Tracks.bind (hask (by intro _ _ h; exact h) (by intros; rfl))
    intro fd
    apply Tracks.ite
    · intro _
      exact .pure fun _ _ h => h
    intro _
    apply Tracks.bind (keeps_call (by intros; trivial) (by intros; rfl))
    intro st
    cases st with
    | none => exact .pure fun _ _ h => h
    | some st => exact .pure fun _ _ h => h
  intro out
  apply Tracks.bind (Q := fun _ => R)
  · exact .onOk (fun _ => keeps_sendfileLoop (fun d v h => (hR d v h).1) _ _ _ _) fun _ _ _ h => h
  intro retval
  unfold filesystemCloseFile sysCloseFile
  apply Tracks.bind (keeps_call (by intros; trivial) (by intros; rfl))
  intro _
  exact .pure fun _ _ h => h

/-- The sockets of a transfer are closed. -/
theorem keeps_closeTransfers {m : ServerM Int}
    (h : Keeps os root argv (At root argv c bytes) m (fun _ => At root argv c bytes)) :
    Keeps os root argv (At root argv c bytes) (do
      let _ ← serverCloseTransferClientSocket
      let _ ← serverCloseTransferSocket
      m) (fun _ => At root argv c bytes) := by
  apply Tracks.bind (keeps_closeSocket fun _ _ h => h.setSock .transferClient (-1))
  intro _
  apply Tracks.bind (keeps_closeSocket fun _ _ h => h.setSock .transfer (-1))
  intro _
  exact h

theorem keeps_commandHandlerRetr (hp : Passed array len bytes) :
    Keeps os root argv (At root argv .retr bytes) (commandHandlerRetr array len)
      (fun _ => At root argv .retr bytes) := by
  apply Tracks.bind (keeps_filePath rfl hp)
  rintro ⟨out, isFileError⟩
  -- as long as nothing failed, the file is the one that was resolved
  have hchain : ∀ {retval : Int} {next : ServerM Int},
      Keeps os root argv (fun d v => At root argv .retr bytes d v ∧ 0 < len ∧ out.buf = v.resolved)
        next (fun _ d v => At root argv .retr bytes d v ∧ 0 < len ∧ out.buf = v.resolved) →
      Keeps os root argv
        (fun d v => At root argv .retr bytes d v ∧ (retval = 0 → 0 < len ∧ out.buf = v.resolved))
        (onOk retval next) (fun retval d v => At root argv .retr bytes d v ∧
          (retval = 0 → 0 < len ∧ out.buf = v.resolved)) := by
    intro retval next h
    apply Tracks.onOk
    · intro h0
      exact h.mono (fun _ _ h => ⟨h.1, h.2 h0⟩) fun _ _ _ h => ⟨h.1, fun _ => h.2⟩
    · intro _ d v h
      exact h
  apply Tracks.bind (hchain (keeps_serverAcceptTransferClientConnection fun d v fd h =>
    ⟨h.1.setSock .transferClient fd, h.2⟩))
  intro retval
  apply Tracks.bind (hchain ?_)
  swap
  · apply Tracks.bind (Q := fun mode d v => (At root argv .retr bytes d v ∧ 0 < len ∧
      out.buf = v.resolved) ∧ mode.2 = v.binary)
    · exact .bind_getData fun _ => .pure fun _ _ ⟨hd, h⟩ => ⟨h, hd ▸ h.1.binary⟩
    rintro ⟨_, isBinary⟩
    apply Tracks.assume (fun _ _ h => h.1.2.1)
    intro hlen
    apply Tracks.bind keeps_readString
    intro path
    apply Tracks.assume (fun _ _ h => h.2)
    rintro ⟨t, rfl⟩
    rw [hp.cstr_eq hlen t]
    apply Tracks.weaken (Q := fun _ d v => (At root argv .retr bytes d v ∧ 0 < len ∧
      out.buf = v.resolved) ∧ isBinary = v.binary)
    swap
    · intro _ d v h
      exact h.1
    apply Tracks.strengthen (R := fun d v => (At root argv .retr bytes d v ∧ 0 < len ∧
      out.buf = v.resolved) ∧ isBinary = v.binary)
    · apply keeps_reply (c := .retr) (by decide) (by decide)
      rintro d v ⟨h, rfl⟩
      exact ⟨h.1, Or.inl rfl⟩
    · intro d v h
      exact h.1
  intro retval
  apply Tracks.bind (hchain (keeps_serverSendfileTransfer fun d v h => ⟨h.1.matches, h.2.2⟩))
  intro retval
  apply Tracks.strengthen (R := At root argv .retr bytes) (keeps_closeTransfers ?_)
  · intro d v h
    exact h.1
  apply Tracks.ite
  · intro _
    exact keeps_reply_of (by decide) (by decide) fun _ => Or.inr (Or.inl rfl)
  · intro _
    refine keeps_reply_of (by decide) (by decide) fun _ => ?_
    cases isFileError with
    | true => exact Or.inr (Or.inr (Or.inl rfl))
    | false => exact Or.inr (Or.inr (Or.inr rfl))

/-! ### Listings -/

theorem keeps_filesystemListDirPerLine {path buf : List Byte} {pathLen size bufLen : ℕ}
    {prependDir : Bool} {cookie : Option Dir}
    (hR : ∀ d v, R d v → path = v.resolved ∨ Printed v.cwd path) :
    Keeps os root argv R
      (filesystemListDirPerLine path pathLen buf size bufLen prependDir cookie) (fun _ => R) := by
  apply Tracks.ite
  swap
  · intro _
    exact .pure fun _ _ h => h
  intro _
  apply Tracks.bind (Q := fun _ => R)
  · cases cookie with
    | none =>
      apply Tracks.call
      intro log d v h
      exact ⟨hR d v h, h⟩
    | some d => exact .pure fun _ _ h => h
  intro d
  cases d with
  | none => exact .pure fun _ _ h => h
  | some d =>
    apply Tracks.bind (Q := fun _ => R)
    · exact .bind (keeps_emit (by intros; trivial) (by intros; rfl)) fun _ => .pure fun _ _ h => h
    rintro ⟨ldir, d⟩
    have hclose : ∀ {out : ListOut}, Keeps os root argv R (do
        sysClosedir d
        pure out) (fun _ => R) :=
      .bind (keeps_emit (by intros; trivial) (by intros; rfl)) fun _ => .pure fun _ _ h => h
    cases ldir with
    | none => exact hclose
    | some name =>
      apply Tracks.ite
      · intro _
        exact .pure fun _ _ h => h
      · intro _
        exact hclose

theorem keeps_serverRealPathToServerPath {path buf : List Byte} {pathLen size n : ℕ} :
    Keeps os root argv R (serverRealPathToServerPath path pathLen buf size n) (fun _ => R) := by
  intro s hlog h
  refine wp_mono wp_serverRealPathToServerPath_unchanged ?_ fun _ h => h
  rintro out _ rfl
  exact ⟨hlog, h⟩

theorem keeps_serverSendReplyOwnBufTransfer {buf : List Byte} {size n : ℕ} :
    Keeps os root argv R (serverSendReplyOwnBufTransfer buf size n) (fun _ => R) := by
  apply Tracks.ite
  swap
  · intro _
    exact .pure fun _ _ h => h
  intro _
  apply Tracks.bind_getData
  intro a
  apply Tracks.strengthen (R := R)
  swap
  · intro d v h
    exact h.2
  apply Tracks.bind (Q := fun _ => R)
  · exact .bind (.peek fun _ _ _ h => h) fun _ => .pure fun _ _ h => h
  intro sent
  apply Tracks.bind (keeps_call (by intros; trivial) (by intros; rfl))
  intro r
  exact .pure fun _ _ h => h

section Nlst

variable {lpath : List Byte} {llen : ℕ}

theorem keeps_nlstBody {l : Listing}
    (hR : ∀ d v, R d v → lpath = v.resolved ∨ Printed v.cwd lpath) :
    Keeps os root argv R (nlstBody lpath llen len l) (fun _ => R) := by
  apply Tracks.bind (keeps_filesystemListDirPerLine hR)
  intro out
  apply Tracks.ite
  · intro _
    exact .pure fun _ _ h => h
  intro _
  apply Tracks.ite
  · intro _
    apply Tracks.bind keeps_serverRealPathToServerPath
    intro path
    apply Tracks.ite
    · intro _
      exact .bind keeps_serverSendReplyOwnBufTransfer fun _ => .pure fun _ _ h => h
    · intro _
      exact .pure fun _ _ h => h
  · intro _
    exact .bind keeps_serverSendReplyOwnBufTransfer fun _ => .pure fun _ _ h => h

theorem keeps_nlstWhile (hR : ∀ d v, R d v → Matches root argv d v ∧
      (lpath = v.resolved ∨ Printed v.cwd lpath)) (fuel : ℕ) (l : Listing) :
    Keeps os root argv R (nlstWhile lpath llen len fuel l) (fun _ => R) := by
  induction fuel generalizing l with
  | zero =>
    unfold nlstWhile
    exact .ite (fun _ => .pure fun _ _ h => h) fun _ => .stop fun d v h => (hR d v h).1
  | succ fuel ih =>
    unfold nlstWhile
    apply Tracks.ite
    · intro _
      exact .pure fun _ _ h => h
    intro _
    apply Tracks.bind (keeps_nlstBody fun d v h => (hR d v h).2)
    rintro ⟨retval, l⟩
    exact .ite (fun _ => .pure fun _ _ h => h) fun _ => ih l

/-- **Only the directory that was resolved, or the working directory, is listed.** -/
theorem keeps_nlstLoop (hR : ∀ d v, R d v → Matches root argv d v ∧
      (lpath = v.resolved ∨ Printed v.cwd lpath)) :
    Keeps os root argv R (nlstLoop lpath llen len) (fun _ => R) := by
  apply Tracks.bind (keeps_nlstBody fun d v h => (hR d v h).2)
  rintro ⟨retval, l⟩
  exact .ite (fun _ => .pure fun _ _ h => h) fun _ => keeps_nlstWhile hR _ l

end Nlst

/-- The directory that `NLST` lists. -/
def Listed (out : PathOut) (v : View) : Prop := out.retval = 0 → ∀ t,
  cstr (out.buf ++ t) = v.resolved ∨ Printed v.cwd (cstr (out.buf ++ t))

theorem keeps_nlstPath (hp : Passed array len bytes) :
    Keeps os root argv (At root argv .nlst bytes) (nlstPath array len)
      (fun out d v => At root argv .nlst bytes d v ∧ Listed out v) := by
  apply Tracks.bind (keeps_serverGetCwd fun _ _ h => h.matches)
  intro cwd
  have hcwd : Keeps os root argv (fun d v => At root argv .nlst bytes d v ∧ GotHome cwd d)
      (pure cwd) (fun out d v => At root argv .nlst bytes d v ∧ Listed out v) := by
    apply Tracks.pure
    rintro d v ⟨h, hhome⟩
    refine ⟨h, fun hok t => Or.inr ?_⟩
    obtain ⟨dir, hprint, -, rfl⟩ := hhome hok
    rw [h.cwd, h.cwdLen] at hprint
    exact Printed.cstr_append hprint h.noNul t
  apply Tracks.ite
  swap
  · intro _
    exact hcwd
  intro _
  apply Tracks.ite
  swap
  · intro _
    exact hcwd
  intro hlen
  rw [← bind_assoc]
  apply Tracks.bind ((keeps_resolveArg rfl hp (Nat.pos_of_ne_zero hlen)).strengthen
    fun _ _ h => h.1)
  intro out
  by_cases hok : out.retval = 0
  · apply keeps_found hok
    rintro r hr rfl
    apply Tracks.bind (Q := fun _ d v => At root argv .nlst bytes d v ∧ v.resolved = r)
    · rw [onOk_zero]
      apply Tracks.bind (keeps_readString_found hr)
      intro realPath
      apply Tracks.assume (fun _ _ h => h.2)
      rintro rfl
      apply Tracks.strengthen (R := fun d v => At root argv .nlst bytes d v ∧ v.resolved = realPath)
      swap
      · intro d v h
        exact h.1
      apply keeps_filesystemHasKind
      · intro d v st h
        exact ⟨h.1.looks v.resolved st, h.2⟩
      · intro d v h
        exact h.2.symm
    intro retval
    apply Tracks.bind (Q := fun _ d v => At root argv .nlst bytes d v ∧ v.resolved = r)
    · exact .onOk (fun _ => .bind_getData fun _ => .pure fun _ _ h => h.2) fun _ _ _ h => h
    intro retval
    apply Tracks.pure
    rintro d v ⟨h, rfl⟩
    exact ⟨h, fun _ t => Or.inl (cstr_strncpy hr.noNul hr.length_lt [] t)⟩
  · simp only [onOk_of_ne hok, pure_bind]
    exact .pure fun _ _ h => ⟨h.1, fun h0 => absurd h0 hok⟩

theorem keeps_commandHandlerNlst (hp : Passed array len bytes) :
    Keeps os root argv (At root argv .nlst bytes) (commandHandlerNlst array len)
      (fun _ => At root argv .nlst bytes) := by
  apply Tracks.bind (keeps_nlstPath hp)
  intro out
  apply Tracks.bind keeps_readString
  intro lpath
  -- as long as nothing failed, the directory is one that may be listed
  apply Tracks.strengthen (R := fun d v => At root argv .nlst bytes d v ∧
    (out.retval = 0 → lpath = v.resolved ∨ Printed v.cwd lpath))
  swap
  · rintro d v ⟨⟨h, hlists⟩, t, rfl⟩
    exact ⟨h, fun h0 => hlists h0 t⟩
  have hchain : ∀ {retval : Int} {next : ServerM Int},
      Keeps os root argv (fun d v => At root argv .nlst bytes d v ∧
          (lpath = v.resolved ∨ Printed v.cwd lpath))
        next (fun _ d v => At root argv .nlst bytes d v ∧
          (lpath = v.resolved ∨ Printed v.cwd lpath)) →
      Keeps os root argv (fun d v => At root argv .nlst bytes d v ∧
          (retval = 0 → lpath = v.resolved ∨ Printed v.cwd lpath))
        (onOk retval next) (fun retval d v => At root argv .nlst bytes d v ∧
          (retval = 0 → lpath = v.resolved ∨ Printed v.cwd lpath)) := by
    intro retval next h
    apply Tracks.onOk
    · intro h0
      exact h.mono (fun _ _ h => ⟨h.1, h.2 h0⟩) fun _ _ _ h => ⟨h.1, fun _ => h.2⟩
    · intro _ d v h
      exact h
  apply Tracks.bind (hchain (keeps_serverAcceptTransferClientConnection fun d v fd h =>
    ⟨h.1.setSock .transferClient fd, h.2⟩))
  intro retval
  apply Tracks.bind (hchain (keeps_reply (c := .nlst) (by decide) (by decide) fun d v h =>
    ⟨h.1, Or.inl rfl⟩))
  intro retval
  apply Tracks.bind (hchain (keeps_nlstLoop fun d v h => ⟨h.1.matches, h.2⟩))
  intro retval
  apply Tracks.strengthen (R := At root argv .nlst bytes) (keeps_closeTransfers ?_)
  · intro d v h
    exact h.1
  apply Tracks.ite
  · intro _
    exact keeps_reply_of (by decide) (by decide) fun _ => Or.inr (Or.inl rfl)
  · intro _
    exact keeps_reply_of (by decide) (by decide) fun _ => Or.inr (Or.inr rfl)

/-- **The handlers**, each with its triple. -/
theorem keeps_commandHandle (hp : Passed array len bytes) (c : Command) :
    Keeps os root argv (At root argv c bytes) (commandHandle c array len)
      (fun _ => Matches root argv) := by
  have hat : ∀ {m : ServerM Int},
      Keeps os root argv (At root argv c bytes) m (fun _ => At root argv c bytes) →
      Keeps os root argv (At root argv c bytes) m (fun _ => Matches root argv) :=
    fun h => h.weaken fun _ _ _ h => h.matches
  cases c with
  | user => exact keeps_commandHandlerUser hp
  | syst => exact hat (keeps_commandHandlerSyst array len)
  | pasv => exact hat (keeps_commandHandlerPasv array len)
  | nlst => exact hat (keeps_commandHandlerNlst hp)
  | pwd => exact hat (keeps_commandHandlerPwd array len)
  | cwd => exact hat (keeps_commandHandlerCwd hp)
  | retr => exact hat (keeps_commandHandlerRetr hp)
  | size => exact hat (keeps_commandHandlerSize hp)
  | type => exact hat (keeps_commandHandlerType hp)
  | help => exact hat (keeps_commandHandlerHelp array len)
  | quit => exact hat (keeps_commandHandlerQuit array len)

/-! ### A line -/

/-- A client is connected, and the record agrees with the view. -/
def Online (root : List Byte) (argv : Argv) (d : ServerData) (v : View) : Prop :=
  ∃ cmd, Attends root argv true cmd d v

theorem Online.matches {d : ServerData} {v : View} (h : Online root argv d v) :
    Matches root argv d v := ⟨true, h⟩

/-- The command of the view has no part in it. -/
theorem Attends.commanded {conn : Bool} {cmd : Option (Command × List Byte)} {d : ServerData}
    {v : View} (h : Attends root argv conn cmd d v) (cmd' : Option (Command × List Byte)) :
    Attends root argv conn cmd' d { v with command := cmd' } :=
  ⟨⟨h.configured, h.located, h.rootPath, h.isConnected, h.connected, rfl, h.binary⟩,
    h.cwd, h.cwdLen,
    h.noNul⟩

/-- The arguments behind the name of a command, in a line with a NUL behind it. -/
theorem passed_lineArgs {line rest name : List Byte} (hlen : line.length < 2 ^ 64) :
    Passed (argsArray (line ++ 0 :: rest) line.length name)
      (argsLen (lineArgs (line ++ 0 :: rest) line.length name))
      ((lineArgs (line ++ 0 :: rest) line.length name).elim [] Args.bytes) := by
  unfold argsArray lineArgs
  by_cases hname : name.length < line.length
  swap
  · rw [if_neg hname, if_neg hname]
    exact ⟨rfl, rfl, fun h => absurd h (by decide)⟩
  have hsize : sizeSub (sizeSub line.length name.length) 1 = line.length - (name.length + 1) := by
    rw [sizeSub_of_le hname.le hlen, sizeSub_of_le (by omega) (by omega)]
    omega
  have hdrop : (line ++ 0 :: rest).drop (name.length + 1) =
      line.drop (name.length + 1) ++ 0 :: rest :=
    List.drop_append_of_le_length (by omega)
  have hbytes : (line.drop (name.length + 1) ++ 0 :: rest).take (line.length - (name.length + 1)) =
      line.drop (name.length + 1) := List.take_left' List.length_drop
  rw [if_pos hname, if_pos hname, hsize, hdrop, hbytes]
  refine ⟨hbytes, List.length_drop, fun _ t => ?_⟩
  rw [List.append_assoc, List.cons_append, cstr_append_zero]
  rfl

/-- **A line is answered.** -/
theorem keeps_commandsParse {line rest : List Byte} (hlen : line.length < 2 ^ 64) :
    Keeps os root argv (Online root argv) (commandsParse (line ++ 0 :: rest) line.length)
      (fun _ => Matches root argv) := by
  cases hfind : commandFind (line ++ 0 :: rest) with
  | some entry =>
    obtain ⟨name, c⟩ := entry
    rintro s hlog ⟨cmd, h⟩
    refine wp_commandsParse_called hfind ?_
    have hasked : (honesty root argv).Kept (.request (line ++ 0 :: rest) line.length :: s.log) :=
      hlog.cons trivial
    have hcalled : (honesty root argv).Kept
        (calledState s (line ++ 0 :: rest) line.length name c).log := hasked.cons trivial
    exact keeps_commandHandle (passed_lineArgs hlen) c _ hcalled (h.commanded _)
  | none =>
    unfold commandsParse
    rw [hfind]
    apply Tracks.bind (Q := fun _ => Attends root argv true none)
    · apply Tracks.emit
      rintro d v ⟨cmd, h⟩
      exact ⟨trivial, h.commanded none⟩
    intro _
    apply Tracks.bind (Q := fun _ => Attends root argv true none)
    · apply keeps_serverSendReply (by decide)
      · intro d v h
        unfold View.tells
        rw [h.connected, if_neg (by decide), h.command]
      · intro d v w h
        unfold View.told
        rw [h.connected, if_neg (by decide), h.command]
        exact h
    · intro _
      exact .pure fun _ _ h => h.matches

/-- Storing a byte in the request buffer, which may end the process outside it. -/
theorem keeps_storeRequest {buffer : List Byte} {i : ℕ} {b : Byte}
    (hR : ∀ d v, R d v → Matches root argv d v) :
    Keeps os root argv R (storeRequest buffer i b) (fun out d v => R d v ∧
      out = if i < requestLenMax then overwrite buffer i [b] else buffer) := by
  apply Tracks.bind (keeps_emit (by intros; trivial) (by intros; rfl))
  intro _
  apply Tracks.ite
  · intro hi
    exact .pure fun _ _ h => ⟨h, (if_pos hi).symm⟩
  · intro hi
    apply Tracks.bind (Q := fun _ => R)
    · apply Tracks.bind (Q := fun _ => R) (.peek fun _ _ _ h => h)
      intro survives
      exact .ite (fun _ => .pure fun _ _ h => h) fun _ => .stop hR
    · intro _
      exact .pure fun _ _ h => ⟨h, (if_neg hi).symm⟩

theorem keeps_handleLine {buffer : List Byte} {n : ℕ} (hn : n - 2 < requestLenMax)
    (hbuffer : n ≤ buffer.length) :
    Keeps os root argv (Online root argv) (handleLine buffer n) (fun _ => Matches root argv) := by
  apply Tracks.bind (keeps_storeRequest fun _ _ h => h.matches)
  intro stored
  apply Tracks.assume (fun _ _ h => h.2)
  rintro rfl
  rw [if_pos hn]
  have hline : (buffer.take (n - 2)).length = n - 2 := by
    rw [List.length_take]
    omega
  have hmax : requestLenMax < 2 ^ 64 := by decide
  have hparse := @keeps_commandsParse os root argv (buffer.take (n - 2)) (buffer.drop (n - 2 + 1))
    (by omega)
  rw [hline] at hparse
  apply Tracks.bind (Q := fun _ => Matches root argv)
  · have hsplit : overwrite buffer (n - 2) [0] =
        buffer.take (n - 2) ++ 0 :: buffer.drop (n - 2 + 1) := by
      rw [overwrite, List.append_assoc, List.singleton_append, List.length_singleton]
    rw [hsplit]
    exact hparse.strengthen fun _ _ h => h.1
  intro retval
  apply Tracks.bind (keeps_emit (by intros; trivial) (by intros; rfl))
  intro _
  have hclosed : ∀ {slot : Slot} (d : ServerData) (v : View), Matches root argv d v →
      Matches root argv (d.setSock slot (-1)) v := by
    intro slot d v h
    obtain ⟨conn, cmd, h⟩ := h
    exact ⟨conn, cmd, h.setSock slot (-1)⟩
  apply Tracks.ite
  · intro _
    apply Tracks.bind (keeps_closeSocket hclosed)
    intro _
    apply Tracks.bind (keeps_closeSocket hclosed)
    intro _
    exact .pure fun _ _ h => h
  · intro _
    exact .pure fun _ _ h => h

theorem keeps_handleConnection :
    Keeps os root argv (Online root argv) handleConnection (fun _ => Matches root argv) := by
  apply Tracks.bind_getData
  intro a
  apply Tracks.strengthen (R := Online root argv)
  swap
  · intro d v h
    exact h.2
  apply Tracks.bind (Q := fun out d v => Online root argv d v ∧ out.2.length ≤ requestLenMax)
  · apply Tracks.bind (Q := fun bytes d v => Online root argv d v ∧
      ∀ b, bytes = some b → b.length ≤ requestLenMax)
    · apply Tracks.call
      intro log d v h
      exact ⟨trivial, h, fun b hb => os.read_length_le hb⟩
    intro bytesRead
    cases bytesRead with
    | none => exact .pure fun _ _ h => ⟨h.1, Nat.zero_le _⟩
    | some bytes => exact .pure fun _ _ h => ⟨h.1, h.2 bytes rfl⟩
  rintro ⟨retval, bytes⟩
  apply Tracks.assume (c := bytes.length ≤ requestLenMax) (fun _ _ h => h.2)
  intro hbytes
  apply Tracks.strengthen (R := Online root argv)
  swap
  · intro d v h
    exact h.1
  apply Tracks.bind (keeps_storeRequest fun _ _ h => h.matches)
  intro buffer
  apply Tracks.assume (fun _ _ h => h.2)
  intro hbuffer
  have hlen : bytes.length ≤ buffer.length := by
    rw [hbuffer]
    split
    · rw [overwrite, List.length_append, List.length_append, List.length_take]
      omega
    · exact le_rfl
  apply Tracks.bind (Q := fun _ => Online root argv)
  · apply Tracks.strengthen (R := Online root argv)
    swap
    · intro d v h
      exact h.1
    apply Tracks.ite
    · intro _
      apply Tracks.bind (keeps_emit (by intros; trivial) (by intros; rfl))
      intro _
      apply Tracks.bind (keeps_emit (by intros; trivial) (by intros; rfl))
      intro _
      exact .pure fun _ _ h => h
    · intro _
      exact .pure fun _ _ h => h
  intro isLine
  apply Tracks.ite
  · intro _
    have hmax : requestLenMax = 288 := rfl
    exact keeps_handleLine (by omega) hlen
  intro _
  apply Tracks.strengthen (R := Matches root argv)
  swap
  · intro d v h
    exact h.matches
  apply Tracks.ite
  · intro _
    exact .bind keeps_serverClientDisconnect fun _ => .pure fun _ _ h => h
  intro _
  apply Tracks.bind (Q := fun _ => Matches root argv) (.peek fun _ _ _ h => h)
  intro errno
  apply Tracks.ite
  · intro _
    exact .pure fun _ _ h => h
  · intro _
    exact .bind keeps_serverStop fun _ => .pure fun _ _ h => h

/-! ### The calls of the handler -/

/-- No client is connected, and the record agrees with the view. -/
def Offline (root : List Byte) (argv : Argv) (d : ServerData) (v : View) : Prop :=
  ∃ cmd, Attends root argv false cmd d v

/-- **The root directory is entered.** -/
theorem keeps_enterRoot {cmd : Option (Command × List Byte)} {dir : List Byte} {n : ℕ} :
    Keeps os root argv (fun d v => dir = root ∧ Attends root argv false cmd d v)
      (serverSetCwd dir n) (Enters root argv false cmd) := by
  apply Tracks.assume (c := filesystemIsAbsPath dir = 0)
  · rintro d v ⟨rfl, h⟩
    exact h.rootPath ▸ h.configured.isAbsPath
  intro hdir
  apply keeps_serverSetCwd hdir
  rintro d v ⟨rfl, h⟩
  exact ⟨h, Or.inr (Or.inl ⟨rfl, h.connected⟩)⟩

theorem keeps_waitForIncomingConnection :
    Keeps os root argv (Offline root argv) waitForIncomingConnection
      (fun _ => Matches root argv) := by
  apply Tracks.of_exists
  intro cmd
  apply Tracks.bind_getData
  intro a
  apply Tracks.strengthen (R := fun d v => a.rootPath = root ∧ Attends root argv false cmd d v)
  swap
  · rintro d v ⟨rfl, h⟩
    exact ⟨h.rootPath, h⟩
  apply Tracks.bind (keeps_call (by intros; trivial) (by intros; rfl))
  intro sock
  apply Tracks.bind (Q := fun _ d v => a.rootPath = root ∧ Attends root argv false cmd d v)
  · exact .modifyData fun d v h => ⟨h.1, h.2.setSock .client sock⟩
  intro _
  apply Tracks.ite
  · intro _
    apply Tracks.bind keeps_enterRoot
    intro retval
    -- the client is greeted, and it is connected if the greeting was sent
    apply Tracks.bind (Q := fun retval d v => Attends root argv (decide (retval = 0)) cmd
      (if retval = 0 then { d with isConnected := true } else d) v)
    · apply Tracks.onOk
      · rintro rfl
        apply keeps_serverSendReply (by decide)
        · intro d v h
          rw [View.tells, if_pos h.connected]
        · intro d v w h
          have htold : v.told (ascii "220 Service ready for new user." ++ crlf) w =
              { v with cwd := v.resolved, connected := decide (w ≠ -1) } := if_pos h.connected
          rw [htold, status]
          by_cases hw : w = -1
          · rw [if_pos hw, if_neg (by decide), hw]
            exact { h.attends_entered with connected := rfl }
          · rw [if_neg hw, if_pos rfl, decide_eq_true hw]
            exact { h.attends_entered with
              configured := h.configured.of_config rfl, located := h.located.of_config rfl
              isConnected := rfl, connected := rfl }
      · intro hr d v h
        rw [if_neg hr, decide_eq_false hr]
        exact h.attends_stayed hr
    intro retval
    apply Tracks.onOk
    · rintro rfl
      apply Tracks.bind (Q := fun _ => Attends root argv true cmd)
      · exact .modifyData fun _ _ h => h
      · intro _
        exact .pure fun _ _ h => h.matches
    · intro hr d v h
      rw [if_neg hr] at h
      exact h.matches
  · intro _
    apply Tracks.strengthen (R := Matches root argv)
    swap
    · intro d v h
      exact h.2.matches
    apply Tracks.bind (Q := fun _ => Matches root argv) (.peek fun _ _ _ h => h)
    intro errno
    apply Tracks.ite
    · intro _
      exact .pure fun _ _ h => h
    · intro _
      exact .bind keeps_serverStop fun _ => .pure fun _ _ h => h

/-- **The server's own socket**: with it the view is told the directory and the mode. -/
theorem keeps_serverSocket {cmd : Option (Command × List Byte)} :
    Keeps os root argv (Enters root argv false cmd 0) (do
      modifyData fun d => { d with transferModeBinary := true }
      let d ← getData
      createPassiveSocket d.port .server) (fun _ => Attends root argv false cmd) := by
  apply Tracks.bind (Q := fun _ d v => d.transferModeBinary = true ∧
    ∃ b, Enters root argv false cmd 0 { d with transferModeBinary := b } v)
  · apply Tracks.modifyData
    intro d v h
    exact ⟨rfl, d.transferModeBinary, h⟩
  intro _
  apply Tracks.bind_getData
  intro a
  apply keeps_createPassiveSocket
  rintro d v fd fd' ⟨-, hbinary, b, h⟩
  have hview : (Event.socket fd).view v = { v with cwd := v.resolved, binary := true } := by
    show (if v.connected = true then v else _) = _
    rw [h.connected, if_neg (by decide)]
  rw [hview]
  exact {
    configured := h.configured.of_config rfl, located := h.located.of_config rfl
    rootPath := h.rootPath, isConnected := h.isConnected, connected := h.connected
    command := h.command, binary := hbinary, cwd := (h.entered rfl).1
    cwdLen := (h.entered rfl).2.1, noNul := (h.entered rfl).2.2 }

theorem keeps_serverStart :
    Keeps os root argv (Offline root argv) serverStart (fun _ => Matches root argv) := by
  apply Tracks.of_exists
  intro cmd
  apply Tracks.bind (Q := fun _ => Attends root argv false cmd)
  · apply Tracks.modifyData
    intro d v h
    exact ((h.setSock .transfer (-1)).setSock .server (-1)).setSock .client (-1)
  intro _
  apply Tracks.bind_getData
  intro a
  apply Tracks.strengthen (R := fun d v => a.rootPath = root ∧ Attends root argv false cmd d v)
  swap
  · rintro d v ⟨rfl, h⟩
    exact ⟨h.rootPath, h⟩
  apply Tracks.bind keeps_enterRoot
  intro retval
  apply Tracks.bind (Q := fun _ => Attends root argv false cmd)
  · apply Tracks.onOk
    · rintro rfl
      exact keeps_serverSocket
    · intro hr d v h
      exact h.attends_stayed hr
  intro retval
  apply Tracks.onOk
  · intro _
    apply Tracks.bind (Q := fun _ => Attends root argv false cmd)
    · apply Tracks.modifyData
      intro d v h
      exact { h with configured := h.configured.of_config rfl, located := h.located.of_config rfl }
    · intro _
      exact .pure fun _ _ h => h.matches
  · intro _ d v h
    exact h.matches

/-- **A call of `VSFTPServerHandler`.** -/
theorem keeps_serverHandler :
    Keeps os root argv (fun d v => Matches root argv d v ∧
        (d.isServerSocketCreated = false → d.isConnected = false)) serverHandler
      (fun _ => Matches root argv) := by
  have hoffline : ∀ {d v}, d.isConnected = false → Matches root argv d v →
      Offline root argv d v := by
    rintro d v hd ⟨conn, cmd, h⟩
    obtain rfl := h.isConnected.symm.trans hd
    exact ⟨cmd, h⟩
  apply Tracks.bind_getData
  intro a
  apply Tracks.ite
  · intro hcreated
    apply keeps_serverStart.strengthen
    rintro d v ⟨rfl, h, hdown⟩
    exact hoffline (hdown hcreated) h
  intro _
  apply Tracks.ite
  · intro hconnected
    apply keeps_waitForIncomingConnection.strengthen
    rintro d v ⟨rfl, h, -⟩
    exact hoffline hconnected h
  · intro hconnected
    apply keeps_handleConnection.strengthen
    rintro d v ⟨rfl, ⟨conn, cmd, h⟩, -⟩
    obtain rfl : conn = true := by
      rw [← h.isConnected]
      exact Bool.eq_true_of_not_eq_false hconnected
    exact ⟨cmd, h⟩

/-! ### Runs -/

/-- Before the loop of `main` there is no session. -/
structure Blank (d : ServerData) (v : View) : Prop where
  isConnected : d.isConnected = false
  connected : v.connected = false
  binary : d.transferModeBinary = v.binary
  cwd : d.cwd = v.cwd
  cwdLen : d.cwdLen = v.cwd.length
  noNul : NoNul v.cwd

theorem Blank.looks {d : ServerData} {v : View} (h : Blank d v) (r : List Byte)
    (st : Option Stat) : Blank d { v with resolved := r, stated := st } :=
  ⟨h.isConnected, h.connected, h.binary, h.cwd, h.cwdLen, h.noNul⟩

/-- `main` up to its loop, whatever the root path turns out to be. -/
theorem keeps_mainStart :
    Keeps os root argv (fun d v => Blank d v ∧ v.resolved = argv.rootPath) (mainStart argv)
      (fun _ => Blank) := by
  apply Tracks.ite
  · intro _
    exact .pure fun _ _ h => h.1
  intro _
  apply Tracks.ite
  · intro _
    exact .pure fun _ _ h => h.1
  intro _
  apply Tracks.bind (Q := fun _ d v => Blank d v ∧ v.resolved = argv.rootPath)
  · apply keeps_filesystemHasKind
    · intro d v st h
      exact ⟨h.1.looks v.resolved st, h.2⟩
    · intro d v h
      exact h.2.symm
  intro retval
  apply Tracks.ite
  · intro _
    exact .pure fun _ _ h => h.1
  intro _
  apply Tracks.ite
  swap
  · intro _
    exact .pure fun _ _ h => h.1
  intro _
  apply Tracks.bind (Q := fun _ d v => Blank d v ∧ v.resolved = argv.rootPath)
  · apply Tracks.modifyData
    intro d v h
    exact ⟨⟨h.1.isConnected, h.1.connected, h.1.binary, h.1.cwd, h.1.cwdLen, h.1.noNul⟩, h.2⟩
  intro _
  apply Tracks.bind (Q := fun out d v => Blank d v ∧ Found out v)
  · apply keeps_filesystemGetRealPath
    · intro d v h
      exact ⟨h.1, fun r => h.1.looks r v.stated⟩
    · intro p d v htarget h
      -- without a working directory only an absolute path is resolved
      unfold realPathTarget at htarget
      split at htarget
      · obtain rfl := Option.some.inj htarget
        exact Or.inl h.2.symm
      · exact absurd htarget (by simp)
  intro out
  apply Tracks.ite
  swap
  · intro _
    exact .pure fun _ _ h => h.1
  intro hok
  apply keeps_found hok
  rintro r hr rfl
  apply Tracks.bind (keeps_readString_found hr)
  intro realPath
  apply Tracks.assume (fun _ _ h => h.2)
  rintro rfl
  apply Tracks.bind (Q := fun _ d v => Blank d v ∧ v.resolved = realPath)
  · apply Tracks.modifyData
    intro d v h
    have hs := h.1.1
    exact ⟨⟨hs.isConnected, hs.connected, hs.binary, hs.cwd, hs.cwdLen, hs.noNul⟩, h.1.2⟩
  intro _
  apply Tracks.weaken (Q := fun _ d v => Blank d v ∧ v.resolved = realPath)
  · apply keeps_filesystemHasKind
    · intro d v st h
      exact ⟨h.1.looks v.resolved st, h.2⟩
    · intro d v h
      exact h.2.symm
  · intro _ d v h
    exact h.1

/-- The log keeps the contract, and the record agrees with what it shows. -/
structure Honest (argv : Argv) (s : St) : Prop where
  kept : (honesty s.data.rootPath argv).Kept s.log
  agrees : Matches s.data.rootPath argv s.data (viewOf argv s.log)

theorem Matches.rootPath {d : ServerData} {v : View} (h : Matches root argv d v) :
    d.rootPath = root := by
  obtain ⟨conn, cmd, h⟩ := h
  exact h.rootPath

theorem started_honest (h : Started os argv s) : Honest argv s := by
  have hblank : Blank St.zero.data (View.init argv.rootPath) :=
    ⟨rfl, rfl, rfl, rfl, rfl, List.not_mem_nil⟩
  have htracks := @keeps_mainStart os s.data.rootPath argv St.zero Contract.kept_nil ⟨hblank, rfl⟩
  obtain ⟨hlog, hs⟩ := of_wp_run htracks h
  refine ⟨hlog, false, (viewOf argv s.log).command, ?_⟩
  exact ⟨⟨(started_spec h).1.configured, started_located h, rfl, hs.isConnected, hs.connected, rfl,
    hs.binary⟩, hs.cwd, hs.cwdLen, hs.noNul⟩

/-- One more call of the handler, however it ends. -/
theorem Honest.call (h : Honest argv s)
    (hdown : s.data.isServerSocketCreated = false → s.data.isConnected = false) :
    Honest argv (serverHandler os s).2 := by
  obtain ⟨hlog, hs⟩ := (@keeps_serverHandler os s.data.rootPath argv).state (fun _ _ _ h => h)
    h.kept
    ⟨h.agrees, hdown⟩
  have hroot : (serverHandler os s).2.data.rootPath = s.data.rootPath := hs.rootPath
  rw [← hroot] at hlog hs
  exact ⟨hlog, hs⟩

theorem Reachable.honest (h : Reachable os argv s) : Honest argv s := by
  refine Reach.invariant h ?_ ?_
  · intro s h0
    exact started_honest h0
  · intro s s' hr hs ht
    have hcall := @Honest.call os s argv hs (Reachable.sound hr).down
    rw [show serverHandler os s = (some 0, s') from ht] at hcall
    exact hcall

/-- The record has what the log shows. -/
structure Replayed (argv : Argv) (s : St) : Prop where
  isConnected : s.data.isConnected = (viewOf argv s.log).connected
  transferModeBinary : s.data.transferModeBinary = (viewOf argv s.log).binary
  cwd : s.data.cwd = (viewOf argv s.log).cwd
  cwdLen : s.data.cwdLen = (viewOf argv s.log).cwd.length

theorem Honest.replayed (h : Honest argv s) : Replayed argv s := by
  obtain ⟨conn, cmd, hs⟩ := h.agrees
  exact ⟨hs.isConnected.trans hs.connected.symm, hs.binary, hs.cwd, hs.cwdLen⟩

/-- A machine on which the client sets the transfer mode, enters the directory `/srv/docs` and asks
where it is. -/
def askingHost : Host :=
  { docsHost with reads := [some (ascii "TYPE A" ++ crlf), some (ascii "CWD docs" ++ crlf),
      some (ascii "PWD" ++ crlf)] }

/-- The state in which it asks. -/
def askingState : St := Host.run askingHost.os 4 (Host.start askingHost.os Host.argv)

/-- The log when that is answered. -/
def askingLog : Log := (serverHandler askingHost.os askingState).2.log

theorem askingState_reachable : Reachable askingHost.os Host.argv askingState :=
  Host.reachable_run (by decide +kernel)

/-- **The log determines the session**, in every reachable state, and however one more call of
`VSFTPServerHandler` ends: whether a client is connected, the transfer mode and the working
directory are what the log shows.  A directory is entered once a reply says so, whether that could
be written or not; a mode is set once the reply was written. -/
theorem session_replayed (h : Reachable os argv s) :
    Replayed argv s ∧ Replayed argv (serverHandler os s).2 :=
  ⟨(Reachable.honest h).replayed, ((Reachable.honest h).call (Reachable.sound h).down).replayed⟩

theorem session_replayed_pwd : Replayed Host.argv askingState ∧
    Replayed Host.argv (serverHandler askingHost.os askingState).2 :=
  session_replayed askingState_reachable

/-- What any record of the log met. -/
theorem Reachable.honest_of_mem (h : Reachable os argv s) {new old : Log} {e : Event}
    (hlog : (serverHandler os s).2.log = new ++ e :: old) :
    e.honest s.data.rootPath argv.ipAddr (viewOf argv old) := by
  obtain ⟨hlogged, -⟩ := (@keeps_serverHandler os s.data.rootPath argv).state (fun _ _ _ h => h)
    (Reachable.honest h).kept ⟨(Reachable.honest h).agrees, (Reachable.sound h).down⟩
  rw [hlog] at hlogged
  exact hlogged.guard

/-- **Every reply is true in the view**, in every run and whatever ends it: it is the greeting if no
client is connected, the refusal of an unknown command, or a reply to the command that is handled,
and what it says of the address, the transfer mode, the size or the arguments is what the session is
at.  The directory in a reply to `PWD` is the one the session is in, as it comes out of being
printed as a format.  A reply ends with CRLF and fits the buffer. -/
theorem replies_true (h : Reachable os argv s) {new old : Log} {fd w : Int} {sent : List Byte}
    (hlog : (serverHandler os s).2.log = new ++ .write .client fd sent w :: old) :
    ∃ text, sent = text ++ crlf ∧ sent.length < responseLenMax ∧
      (viewOf argv old).tells s.data.rootPath argv.ipAddr text := Reachable.honest_of_mem h hlog

/-- The reply to `PWD` has the directory that `CWD` has changed to. -/
theorem replies_true_pwd : ∃ text, ascii "257 \"/docs\"" ++ crlf = text ++ crlf ∧
    (ascii "257 \"/docs\"" ++ crlf).length < responseLenMax ∧
      (viewOf Host.argv (askingLog.drop 2)).tells askingState.data.rootPath Host.argv.ipAddr text :=
  @replies_true askingHost.os askingState Host.argv askingState_reachable (askingLog.take 1)
    (askingLog.drop 2) 4 13 _ (by decide +kernel)

/-- **The file system is asked about nothing else**, in every run and whatever ends it: `realpath`
gets the root path to start with and to greet a client, what it has returned itself, or what the
argument of the command stands for; files are looked at and opened only under the path that was
resolved last, and directories under that or under the working directory. -/
theorem questions_justified (h : Reachable os argv s) {new old : Log} {e : Event}
    (hlog : (serverHandler os s).2.log = new ++ e :: old) :
    e.justified s.data.rootPath (viewOf argv old) := by
  have hhonest := Reachable.honest_of_mem h hlog
  cases e with
  | write who => cases who <;> trivial
  | _ => exact hhonest

/-- `CWD` asks for the directory that its argument stands for. -/
theorem questions_justified_cwd :
    (Event.realpath (ascii "/srv/docs") (some (ascii "/srv/docs"))).justified
      askingState.data.rootPath (viewOf Host.argv (askingLog.drop 14)) :=
  @questions_justified askingHost.os askingState Host.argv askingState_reachable (askingLog.take 13)
    (askingLog.drop 14) _ (by decide +kernel)

end VsFtp
