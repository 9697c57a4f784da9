import VsFtp.Transfers
import VsFtp.Main

/-!
# What one call of the handler does

The outcomes of the commands, of a request, of the connection handling and of
`VSFTPServerHandler` as a whole, each described by the record and by what is added
to the log.  Everything that is proved about runs of the server is proved by cases
on these outcomes.

## Main definitions

* `Outcome` — the outcome of a command's handler.
* `Parsing`, `Handled` — the outcome of a request line.
* `IsLine`, `Conversing` — the outcome of `HandleConnection`.
* `Starting`, `Waiting` — the outcomes of `VSFTPServerStart` and
  `WaitForIncomingConnection`.
* `Step`, `Killing` — the outcomes of `VSFTPServerHandler`.
* `Called` — the handler that is called in a turn, and the state it starts in.

## Main results

* `wp_serverHandler` — **one call of the handler is a `Step`**, unless the process
  is killed by one of the two kinds of undefined behaviour.
* `Step.of_called` — what a step is when a handler is called in it.
-/

namespace VsFtp

open CString Prog

attribute [local irreducible] serverSendReply helpText

variable {os : Os} {s : St} {E : St → Prop}

/-! ### The commands -/

/-- The array holds the text of an address, whatever lies behind it. -/
def Addressed (ipAddr : List Byte) : Prop := ∀ t, (cstr (ipAddr ++ t)).length < inetAddrstrlen

/-- The outcome of `PASV`. -/
inductive Passive (os : Os) (s : St) : Int → St → Prop
  | mk {X Y C : List Event} {retval w : Int} {text : List Byte}
      (hX : Closes s.data.transferClientSock X) (hY : Closes s.data.transferSock Y)
      (hC : Creates pasvPortNumber retval (os.socket (Y ++ (X ++ s.log))) C)
      (ht : retval = 0 ∧ ascii "227" <+: text ∨ retval ≠ 0 ∧ ErrorReply text = true) :
      Passive os s (status w)
        ⟨{ s.data.retired with transferSock := os.socket (Y ++ (X ++ s.log)) },
          .write .client s.data.clientSock text w :: (C ++ (Y ++ (X ++ s.log)))⟩

/-- The text of an address with commas for dots. -/
def commas (ip : List Byte) : List Byte := ip.map fun c => if c = 46 then 44 else c

/-- An address is read back from its array once its dots are commas. -/
theorem cstr_commas {ip : List Byte} (hn : NoNul ip) (hlen : ip.length < inetAddrstrlen)
    (t : List Byte) :
    cstr (((strncpy [] 0 ip inetAddrstrlen).take ip.length).map
      (fun c => if c = 46 then 44 else c) ++ (strncpy [] 0 ip inetAddrstrlen).drop ip.length ++ t)
        = commas ip := by
  obtain ⟨k, hk⟩ : ∃ k, inetAddrstrlen - ip.length = k + 1 :=
    ⟨inetAddrstrlen - ip.length - 1, by omega⟩
  rw [strncpy_zero hlen.le, List.drop_nil, List.append_nil, hk, List.replicate_succ,
    List.take_left' rfl, List.drop_left' rfl, List.append_assoc, List.cons_append]
  refine cstr_append_nul (fun h0 => ?_) _
  obtain ⟨c, hc, h0⟩ := List.mem_map.mp h0
  split at h0
  · exact absurd h0 (by decide)
  · exact hn (h0 ▸ hc)

theorem pasvReply_length_lt {ip : List Byte} (hlen : ip.length < inetAddrstrlen) (p1 p2 : UInt8) :
    (pasvReply ip p1 p2).length + 2 < responseLenMax := by
  have hdigits : ∀ p : UInt8, (decimal p.toNat).length ≤ 20 := fun p =>
    decimal_length_le (by have := p.toNat_lt; omega)
  have h1 := hdigits p1
  have h2 := hdigits p2
  have hascii : (ascii "227 Entering Passive Mode (").length = 27 ∧ (ascii ",").length = 1 ∧
      (ascii ").").length = 2 := by
    decide
  have hroom : inetAddrstrlen + 80 < responseLenMax := by decide
  simp only [pasvReply, List.length_append, hascii]
  omega

/-- The string at the start of the array of the address. -/
def addressText (os : Os) (s : St) : List Byte := cstr (s.data.ipAddr ++ os.behind s.log)

theorem wp_serverGetServerIP4 (h : Addressed s.data.ipAddr) :
    wp os (serverGetServerIP4 [] inetAddrstrlen 0) (fun out s' =>
      out = ⟨0, strncpy [] 0 (addressText os s) inetAddrstrlen, (addressText os s).length⟩ ∧ s' = s)
      E s := by
  unfold serverGetServerIP4
  rw [if_pos le_rfl]
  refine (wp_bind _ _).mpr (wp_getData.mpr (wp_seq wp_readString ?_))
  rintro _ s1 ⟨rfl, rfl⟩
  have hlen := strnlen_strncpy (noNul_cstr _) (h (os.behind s1.log)) []
  exact ⟨by rw [addressText, hlen], rfl⟩

/-- **The reply to `PASV` once the socket is created**: the address and the port. -/
theorem wp_pasvEntering {port : UInt16} (h : Addressed s.data.ipAddr) :
    wp os (pasvEntering port) (fun r s' => ∃ w, r = status w ∧
      s' = ⟨s.data, .write .client s.data.clientSock
        (pasvReply (commas (addressText os s)) (port >>> 8).toUInt8 (port &&& 0xFF).toUInt8 ++ crlf)
        w :: s.log⟩) E s := by
  unfold pasvEntering
  refine wp_seq (wp_serverGetServerIP4 h) ?_
  rintro _ s1 ⟨rfl, rfl⟩
  rw [if_pos rfl]
  refine wp_seq wp_readString ?_
  rintro _ s2 ⟨rfl, rfl⟩
  have hip : (addressText os s2).length < inetAddrstrlen := h (os.behind s2.log)
  have hn : NoNul (addressText os s2) := noNul_cstr _
  simp only [cstr_commas hn hip]
  exact wp_serverSendReply (pasvReply_length_lt (by rw [commas, List.length_map]; exact hip) _ _)

/-- What is sent when there is no data connection. -/
def noConnection : List Byte := ascii "425 Cannot open data connection." ++ crlf

/-- **What `PASV` does**: both transfer sockets are closed, a new one is attempted, and the reply
says whether there is one. -/
theorem wp_commandHandlerPasv_attempt (args : List Byte) (len : ℕ) (h : Addressed s.data.ipAddr) :
    wp os (commandHandlerPasv args len) (fun r s' => ∃ X Y C retval w behind,
      Closes s.data.transferClientSock X ∧ Closes s.data.transferSock Y ∧
      Attempt pasvPortNumber retval (os.socket (Y ++ (X ++ s.log))) C ∧ r = status w ∧
      s' = ⟨{ s.data.retired with transferSock := os.socket (Y ++ (X ++ s.log)) },
        .write .client s.data.clientSock
          (if retval = 0 then pasvReply (commas (cstr (s.data.ipAddr ++ behind))) 156 64 ++ crlf
            else noConnection) w :: (C ++ (Y ++ (X ++ s.log)))⟩) E s := by
  unfold commandHandlerPasv
  refine wp_closeTransfers fun X Y hX hY => ?_
  -- the last transfer socket is gone, so a new one is created
  have hcreate : wp os (serverCreateTransferSocket pasvPortNumber) (fun retval s' => ∃ C,
      Attempt pasvPortNumber retval (os.socket (Y ++ (X ++ s.log))) C ∧
        s' = ⟨{ s.data.retired with transferSock := os.socket (Y ++ (X ++ s.log)) },
          C ++ (Y ++ (X ++ s.log))⟩) E ⟨s.data.retired, Y ++ (X ++ s.log)⟩ := by
    unfold serverCreateTransferSocket
    refine (wp_bind _ _).mpr (wp_getData.mpr ?_)
    exact wp_ite (fun _ => wp_createPassiveSocket_attempt) (fun h => absurd rfl h)
  refine wp_seq hcreate ?_
  rintro retval _ ⟨C, hC, rfl⟩
  refine wp_ite (fun h0 => ?_) (fun hne => ?_)
  · refine wp_mono (wp_pasvEntering h) ?_ fun _ h => h
    rintro _ _ ⟨w, rfl, rfl⟩
    exact ⟨X, Y, C, retval, w, _, hX, hY, hC, rfl, by rw [if_pos h0]; rfl⟩
  · refine wp_mono (wp_serverSendReply (by decide)) ?_ fun _ h => h
    rintro _ _ ⟨w, rfl, rfl⟩
    exact ⟨X, Y, C, retval, w, [], hX, hY, hC, rfl, by rw [if_neg hne]; rfl⟩

theorem wp_commandHandlerPasv (args : List Byte) (len : ℕ) (h : Addressed s.data.ipAddr) :
    wp os (commandHandlerPasv args len) (Passive os s) E s := by
  refine wp_mono (wp_commandHandlerPasv_attempt args len h) ?_ fun _ h => h
  rintro _ _ ⟨X, Y, C, retval, w, behind, hX, hY, hC, rfl, rfl⟩
  refine .mk hX hY hC.creates ?_
  by_cases h0 : retval = 0
  · have hcode : ascii "227" <+: ascii "227 Entering Passive Mode (" := by decide
    refine Or.inl ⟨h0, ?_⟩
    rw [if_pos h0]
    simp only [pasvReply, List.append_assoc]
    exact hcode.trans (List.prefix_append _ _)
  · refine Or.inr ⟨h0, ?_⟩
    rw [if_neg h0]
    decide

/-- The commands that always send one reply and do nothing else of note. -/
def Command.answers : Command → Bool
  | .user => true
  | .syst => true
  | .pwd => true
  | .type => true
  | .help => true
  | .quit => true
  | _ => false

/-- The outcome of the handler of a command, called with an array and a length. -/
inductive Outcome (os : Os) (s : St) (args : List Byte) (len : ℕ) : Command → Int → St → Prop
  | answered {c : Command} {r : Int} {s' : St} (hc : c.answers = true) (h : Answered s r s') :
      Outcome os s args len c r s'
  | rejected {r : Int} {s1 s' : St} (hn : ¬ Allowed args len) (h : Answered s r s1)
      (hd : Disconnects s1 s')
      (ht : ∃ w, s1.log = .write .client s.data.clientSock refusal w :: s.log) :
      Outcome os s args len .user r s'
  | moved {r : Int} {s' : St} (h : Moved os s args len r s') : Outcome os s args len .cwd r s'
  | sized {r : Int} {s' : St} (h : Sizing os s args len r s') : Outcome os s args len .size r s'
  | passive {r : Int} {s' : St} (h : Passive os s r s') : Outcome os s args len .pasv r s'
  | listed {r r0 : Int} {s' : St} {lpath : List Byte} {L : List Event}
      (hL : Listable os s args len r0 lpath L)
      (h : Transferred os (listing lpath) r0 ⟨s.data, L ++ s.log⟩ r s') :
      Outcome os s args len .nlst r s'
  | sent {r : Int} {s' : St} {out : PathOut × Bool} {L : List Event}
      (hL : FilePath os s args len out L)
      (h : Transferred os (sending out.1.buf) out.1.retval ⟨s.data, L ++ s.log⟩ r s') :
      Outcome os s args len .retr r s'

/-- The calls of a handler that print the working directory. -/
def Prints (os : Os) (s : St) (args : List Byte) (len : ℕ) : Command → Prop
  | .pwd => True
  | .nlst => True
  | .cwd => 0 < len ∧ (IsRelative os s args ∨ ∃ r, Resolves os s.log (argTarget os s args len) r)
  | .retr => 0 < len ∧ IsRelative os s args
  | .size => 0 < len ∧ IsRelative os s args
  | _ => False

/-- **Every handler has one of these outcomes**, unless it prints a working directory
that cannot be printed. -/
theorem wp_commandHandle {c : Command} {args : List Byte} {len : ℕ}
    (h : c = .pasv → Addressed s.data.ipAddr) :
    wp os (commandHandle c args len) (Outcome os s args len c)
      (fun s' => Prints os s args len c ∧ Killed os s s') s := by
  have hanswer : ∀ {m : ServerM Int} {E : St → Prop}, c.answers = true →
      wp os m (Answered s) E s → wp os m (Outcome os s args len c) E s := fun hc hm =>
    wp_mono hm (fun _ _ => .answered hc) fun _ h => h
  cases c with
  | user =>
    refine wp_mono wp_commandHandlerUser ?_ fun _ h => h
    rintro r s' (h | ⟨hn, s1, h, hd, ht⟩)
    · exact .answered rfl h
    · exact .rejected hn h hd ht
  | syst => exact hanswer rfl (wp_commandHandlerSyst args len)
  | pasv =>
    exact wp_mono (wp_commandHandlerPasv args len (h rfl)) (fun _ _ => .passive) fun _ h => h
  | nlst =>
    refine wp_mono wp_commandHandlerNlst ?_ fun _ h => ⟨trivial, h⟩
    rintro r s' ⟨r0, lpath, L, hL, h⟩
    exact .listed hL h
  | pwd =>
    exact wp_mono (hanswer rfl (wp_commandHandlerPwd args len)) (fun _ _ h => h)
      fun _ h => ⟨trivial, h⟩
  | cwd => exact wp_mono wp_commandHandlerCwd (fun _ _ => .moved) fun _ h => h
  | retr =>
    refine wp_mono wp_commandHandlerRetr ?_ fun _ h => h
    rintro r s' ⟨out, L, hL, h⟩
    exact .sent hL h
  | size => exact wp_mono wp_commandHandlerSize (fun _ _ => .sized) fun _ h => h
  | type => exact hanswer rfl wp_commandHandlerType
  | help => exact hanswer rfl (wp_commandHandlerHelp args len)
  | quit => exact hanswer rfl (wp_commandHandlerQuit args len)

/-! ### A line -/

/-- The arguments a handler is called with, as they are recorded. -/
def lineArgs (buffer : List Byte) (len : ℕ) (name : List Byte) : Option Args :=
  if len > name.length then
    some ⟨name.length + 1, sizeSub (sizeSub len name.length) 1,
      (buffer.drop (name.length + 1)).take (sizeSub (sizeSub len name.length) 1)⟩
  else none

/-- The array a handler is called with. -/
def argsArray (buffer : List Byte) (len : ℕ) (name : List Byte) : List Byte :=
  if len > name.length then buffer.drop (name.length + 1) else []

/-- The length a handler is called with. -/
def argsLen (args : Option Args) : ℕ := args.elim 0 (·.len)

@[simp] theorem argsLen_none : argsLen none = 0 := rfl

@[simp] theorem argsLen_some (args : Args) : argsLen (some args) = args.len := rfl

/-- The state in which the handler of the command `c` is called by
`VSFTPCommandsParse`. -/
def calledState (s : St) (buffer : List Byte) (len : ℕ) (name : List Byte) (c : Command) : St :=
  ⟨s.data, .dispatch c (lineArgs buffer len name) :: .request buffer len :: s.log⟩

/-- The outcome of `VSFTPCommandsParse`. -/
inductive Parsing (os : Os) (s : St) (buffer : List Byte) (len : ℕ) : Int → St → Prop
  | known {name : List Byte} {c : Command} {r : Int} {s' : St}
      (hfind : commandFind buffer = some (name, c))
      (h : Outcome os (calledState s buffer len name c) (argsArray buffer len name)
        (argsLen (lineArgs buffer len name)) c r s') : Parsing os s buffer len r s'
  | unknown {text : List Byte} {w : Int} (hfind : commandFind buffer = none)
      (ht : ErrorReply text = true) : Parsing os s buffer len enotsup
        ⟨s.data, .write .client s.data.clientSock text w :: .request buffer len :: s.log⟩

/-- `VSFTPCommandsParse` was killed in the handler. -/
def ParsingKilled (os : Os) (s : St) (buffer : List Byte) (len : ℕ) (s' : St) : Prop :=
  ∃ name c, commandFind buffer = some (name, c) ∧
    Prints os (calledState s buffer len name c) (argsArray buffer len name)
      (argsLen (lineArgs buffer len name)) c ∧
    Killed os (calledState s buffer len name c) s'

/-- A line whose command is known is what its handler makes of it. -/
theorem wp_commandsParse_called {buffer name : List Byte} {len : ℕ} {c : Command}
    (hfind : commandFind buffer = some (name, c))
    {Q : Int → St → Prop}
    (h : wp os (commandHandle c (argsArray buffer len name) (argsLen (lineArgs buffer len name)))
      Q E (calledState s buffer len name c)) : wp os (commandsParse buffer len) Q E s := by
  unfold commandsParse
  refine (wp_bind _ _).mpr ((wp_emit _).mpr ?_)
  rw [hfind]
  unfold argsArray calledState lineArgs at h
  refine wp_ite (fun hlen => ?_) (fun hlen => ?_)
  · refine (wp_bind _ _).mpr ((wp_emit _).mpr ?_)
    rw [if_pos hlen, if_pos hlen, argsLen_some] at h
    exact h
  · refine (wp_bind _ _).mpr ((wp_emit _).mpr ?_)
    rw [if_neg hlen, if_neg hlen, argsLen_none] at h
    exact h

theorem wp_commandsParse {buffer : List Byte} {len : ℕ} (h : Addressed s.data.ipAddr) :
    wp os (commandsParse buffer len) (Parsing os s buffer len) (ParsingKilled os s buffer len)
      s := by
  cases hfind : commandFind buffer with
  | some entry =>
    obtain ⟨name, c⟩ := entry
    refine wp_commandsParse_called hfind ?_
    exact wp_mono (wp_commandHandle fun _ => h) (fun _ _ => .known hfind)
      fun _ hk => ⟨name, c, hfind, hk⟩
  | none =>
    unfold commandsParse
    refine (wp_bind _ _).mpr ((wp_emit _).mpr ?_)
    rw [hfind]
    refine wp_seq (wp_serverSendReply (by decide)) ?_
    rintro _ _ ⟨w, -, rfl⟩
    exact .unknown hfind (by decide)

/-- What `HandleConnection` does when `VSFTPCommandsParse` has returned `r`: if the
command failed, the transfer sockets are closed. -/
inductive Handled (s : St) (r : Int) : St → Prop
  | kept (hr : r = 0) : Handled s r ⟨s.data, .result r :: s.log⟩
  | retired {X Y : List Event} (hr : r ≠ 0) (hX : Closes s.data.transferClientSock X)
      (hY : Closes s.data.transferSock Y) :
      Handled s r ⟨s.data.retired, Y ++ (X ++ .result r :: s.log)⟩

/-- `HandleConnection` goes on from what `VSFTPCommandsParse` returns. -/
theorem wp_handleLine_parsed {buffer : List Byte} {n : ℕ} {Q : Int → St → Prop}
    (hn : n - 2 < requestLenMax)
    (h : wp os (commandsParse (overwrite buffer (n - 2) [0]) (n - 2)) Q E
      ⟨s.data, .index (n - 2) :: s.log⟩) :
    wp os (handleLine buffer n) (fun r s' => r = 0 ∧ ∃ r1 s2, Q r1 s2 ∧ Handled s2 r1 s') E s := by
  unfold handleLine storeRequest
  refine (wp_bind _ _).mpr ((wp_bind _ _).mpr ((wp_emit _).mpr ?_))
  rw [if_pos hn]
  refine (wp_pure _).mpr (wp_seq h fun r1 s2 hq => ?_)
  refine (wp_bind _ _).mpr ((wp_emit _).mpr (wp_ite (fun hr => ?_) (fun h0 => ?_)))
  · exact wp_closeTransfers fun X Y hX hY => ⟨rfl, r1, s2, hq, .retired hr hX hY⟩
  · exact ⟨not_not.mp h0, r1, s2, hq, .kept (not_not.mp h0)⟩

/-! ### Reading from the client -/

/-- What was read is handled as a line: more than two bytes that end in CRLF. -/
def IsLine (bytes : List Byte) : Prop :=
  2 < bytes.length ∧ bytes.drop (bytes.length - 2) = crlf

instance (bytes : List Byte) : Decidable (IsLine bytes) := inferInstanceAs (Decidable (_ ∧ _))

/-- The request buffer after the read and the NUL stored behind it, if that is
inside. -/
def requestBuffer (bytes : List Byte) : List Byte :=
  if bytes.length < requestLenMax then overwrite bytes bytes.length [0] else bytes

/-- The log once the NUL is stored. -/
def storedLog (sock : Int) (answer : Option (List Byte)) (log : Log) : Log :=
  .index (answer.getD []).length :: .read sock requestLenMax answer :: log

/-- The records of reading and looking at the end of what was read. -/
def examined (sock : Int) (answer : Option (List Byte)) : List Event :=
  (if 2 < (answer.getD []).length then
    [.index ((answer.getD []).length - 1), .index ((answer.getD []).length - 2)] else []) ++
    [.index (answer.getD []).length, .read sock requestLenMax answer]

theorem mem_examined {sock : Int} {answer : Option (List Byte)} {e : Event}
    (h : e ∈ examined sock answer) :
    e = .read sock requestLenMax answer ∨
      ∃ i, e = .index i ∧ (i = (answer.getD []).length ∨ i + 1 ≤ (answer.getD []).length) := by
  unfold examined at h
  rcases List.mem_append.mp h with h | h
  · split at h
    · next hlen =>
      rcases List.mem_pair.mp h with rfl | rfl
      · exact Or.inr ⟨_, rfl, Or.inr (by omega)⟩
      · exact Or.inr ⟨_, rfl, Or.inr (by omega)⟩
    · exact absurd h List.not_mem_nil
  · rcases List.mem_pair.mp h with rfl | rfl
    · exact Or.inr ⟨_, rfl, Or.inl rfl⟩
    · exact Or.inl rfl

/-- The log once the end of what was read has been looked at. -/
abbrev examinedLog (sock : Int) (answer : Option (List Byte)) (log : Log) : Log :=
  examined sock answer ++ log

/-- The request buffer once its CRLF is cut off. -/
def lineBuffer (bytes : List Byte) : List Byte :=
  overwrite (requestBuffer bytes) (bytes.length - 2) [0]

/-- The state in which a line is handed to `VSFTPCommandsParse`. -/
def lineState (s : St) (bytes : List Byte) : St :=
  ⟨s.data, .index (bytes.length - 2) :: examinedLog s.data.clientSock (some bytes) s.log⟩

/-- What the read of `HandleConnection` answers. -/
abbrev received (os : Os) (s : St) : Option (List Byte) :=
  os.read s.log s.data.clientSock requestLenMax

/-- The status of a read. -/
def readStatus (answer : Option (List Byte)) : Int := if answer.isSome then 0 else -1

/-- The outcome of `HandleConnection`. -/
inductive Conversing (os : Os) (s : St) : Int → St → Prop
  | line {bytes : List Byte} {r : Int} {s2 s' : St} (hread : received os s = some bytes)
      (hline : IsLine bytes)
      (hp : Parsing os (lineState s bytes) (lineBuffer bytes) (bytes.length - 2) r s2)
      (hh : Handled s2 r s') : Conversing os s 0 s'
  | closed {s' : St} (hread : received os s = some [])
      (h : Disconnects ⟨s.data, storedLog s.data.clientSock (some []) s.log⟩ s') :
      Conversing os s 0 s'
  | ignored {answer : Option (List Byte)} (hread : received os s = answer) (hne : answer ≠ some [])
      (hline : ¬ IsLine (answer.getD []))
      (herr : os.errno (examinedLog s.data.clientSock answer s.log) = eagain) :
      Conversing os s (readStatus answer) ⟨s.data, examinedLog s.data.clientSock answer s.log⟩
  | stopped {answer : Option (List Byte)} {s' : St} (hread : received os s = answer)
      (hne : answer ≠ some []) (hline : ¬ IsLine (answer.getD []))
      (herr : os.errno (examinedLog s.data.clientSock answer s.log) ≠ eagain)
      (h : Stops ⟨s.data, examinedLog s.data.clientSock answer s.log⟩ s') :
      Conversing os s (readStatus answer) s'

/-- The read fills the request buffer, and the process does not survive the NUL
that is stored behind it. -/
def Overlong (os : Os) (s : St) : Prop :=
  ∃ bytes, received os s = some bytes ∧ bytes.length = requestLenMax ∧
    os.survives (storedLog s.data.clientSock (some bytes) s.log) = false

/-- `HandleConnection` was killed: by the NUL behind a full buffer, or in the handler
of a line. -/
inductive ConversingKilled (os : Os) (s : St) : St → Prop
  | overlong {bytes : List Byte} (hread : received os s = some bytes) (h : Overlong os s) :
      ConversingKilled os s ⟨s.data, storedLog s.data.clientSock (some bytes) s.log⟩
  | line {bytes : List Byte} {s' : St} (hread : received os s = some bytes) (hline : IsLine bytes)
      (h : ParsingKilled os (lineState s bytes) (lineBuffer bytes) (bytes.length - 2) s') :
      ConversingKilled os s s'

theorem exists_requestBuffer (bytes : List Byte) : ∃ t, requestBuffer bytes = bytes ++ t := by
  unfold requestBuffer
  by_cases h : bytes.length < requestLenMax
  · refine ⟨[0], ?_⟩
    rw [if_pos h, overwrite, List.take_length, List.drop_of_length_le (by simp), List.append_nil]
  · exact ⟨[], by rw [if_neg h, List.append_nil]⟩

/-- The test for CRLF looks at the last two bytes that were read. -/
theorem strncmp_requestBuffer_iff {bytes : List Byte} (hlen : 2 < bytes.length) :
    strncmp ((requestBuffer bytes).drop (bytes.length - 2)) crlf 2 = true ↔ IsLine bytes := by
  obtain ⟨t, ht⟩ := exists_requestBuffer bytes
  have hcrlf : NoNul crlf := by decide
  have hiff := strncmp_eq_true_iff hcrlf ((requestBuffer bytes).drop (bytes.length - 2))
  have hend : (bytes.drop (bytes.length - 2)).length = 2 := by
    rw [List.length_drop]
    omega
  refine hiff.trans ?_
  rw [ht, List.drop_append_of_le_length (by omega), List.prefix_iff_eq_take,
    List.take_left' (show _ = crlf.length from hend)]
  exact ⟨fun h => ⟨hlen, h.symm⟩, fun h => h.2.symm⟩

theorem wp_storeRequest_nul {bytes : List Byte} :
    wp os (storeRequest bytes bytes.length 0)
      (fun buffer s' => buffer = requestBuffer bytes ∧
        s' = ⟨s.data, .index bytes.length :: s.log⟩)
      (fun s' => requestLenMax ≤ bytes.length ∧ os.survives (.index bytes.length :: s.log) = false ∧
        s' = ⟨s.data, .index bytes.length :: s.log⟩) s := by
  unfold storeRequest requestBuffer
  refine (wp_bind _ _).mpr ((wp_emit _).mpr ?_)
  by_cases h : bytes.length < requestLenMax
  · rw [if_pos h, if_pos h]
    exact ⟨rfl, rfl⟩
  · rw [if_neg h, if_neg h]
    refine (wp_bind _ _).mpr ((wp_bind _ _).mpr ((wp_peek _).mpr ?_))
    refine wp_ite (fun _ => ⟨rfl, rfl⟩) (fun hs => ⟨not_lt.mp h, ?_, rfl⟩)
    exact Bool.eq_false_iff.mpr hs

/-- Looking at the end of what was read. -/
theorem wp_examine {sock : Int} {bytes : List Byte} {log : Log} :
    wp os (if (0 : Int) = 0 ∧ bytes.length > 2 then endsLine (requestBuffer bytes) bytes.length
        else pure false : ServerM Bool)
      (fun isLine s' => (isLine = true ↔ IsLine bytes) ∧
        s' = ⟨s.data, examinedLog sock (some bytes) log⟩) E
      ⟨s.data, storedLog sock (some bytes) log⟩ := by
  by_cases hlen : 2 < bytes.length
  · rw [if_pos ⟨rfl, hlen⟩, examinedLog, examined, Option.getD_some, if_pos hlen]
    exact ⟨strncmp_requestBuffer_iff hlen, rfl⟩
  · rw [if_neg (fun h => hlen h.2), examinedLog, examined, Option.getD_some, if_neg hlen]
    exact ⟨iff_of_false (by simp) fun h => hlen h.1, rfl⟩

/-- What `HandleConnection` does with something that is not a line. -/
theorem wp_notLine {retval : Int} :
    wp os (do
      let errno ← getErrno
      if errno = eagain then pure retval
      else do
        let _ ← serverStop
        pure retval : ServerM Int)
      (fun r s' => r = retval ∧ (os.errno s.log = eagain ∧ s' = s ∨
        os.errno s.log ≠ eagain ∧ Stops s s')) E s := by
  refine (wp_bind _ _).mpr ((wp_peek _).mpr (wp_ite (fun h => ?_) (fun h => ?_)))
  · exact ⟨rfl, Or.inl ⟨h, rfl⟩⟩
  · exact wp_seq wp_serverStop fun _ _ hs => ⟨rfl, Or.inr ⟨h, hs⟩⟩

theorem wp_handleConnection (h : Addressed s.data.ipAddr) :
    wp os handleConnection (Conversing os s) (ConversingKilled os s) s := by
  unfold handleConnection receiveOwnSock
  refine (wp_bind _ _).mpr (wp_getData.mpr ((wp_bind _ _).mpr ((wp_bind _ _).mpr
    ((wp_call _ _).mpr ?_))))
  cases hread : os.read s.log s.data.clientSock requestLenMax with
  | none =>
    -- the read failed: only `errno` is looked at
    refine (wp_pure _).mpr (wp_seq (wp_mono wp_storeRequest_nul (fun _ _ h => h)
      fun _ h => absurd h.1 (by decide)) ?_)
    rintro _ _ ⟨rfl, rfl⟩
    refine (wp_bind _ _).mpr ?_
    rw [if_neg (by decide)]
    refine (wp_pure _).mpr ?_
    rw [if_neg (by decide), if_neg (by decide)]
    refine wp_mono wp_notLine ?_ fun _ h => h
    rintro _ _ ⟨rfl, ⟨herr, rfl⟩ | ⟨herr, hs⟩⟩
    · exact .ignored hread (by simp) (by decide) herr
    · exact .stopped hread (by simp) (by decide) herr hs
  | some bytes =>
    have hle : bytes.length ≤ requestLenMax := os.read_length_le hread
    refine (wp_pure _).mpr (wp_seq (wp_mono wp_storeRequest_nul (fun _ _ h => h) ?_) ?_)
    · rintro _ ⟨hfull, hs, rfl⟩
      exact .overlong hread ⟨bytes, hread, Nat.le_antisymm hle hfull, hs⟩
    · rintro _ _ ⟨rfl, rfl⟩
      refine wp_seq wp_examine ?_
      rintro isLine _ ⟨hline, rfl⟩
      refine wp_ite (fun h1 => ?_) (fun h1 => ?_)
      · have hl := hline.mp h1
        have hlen := hl.1
        refine wp_mono (wp_handleLine_parsed (by omega) (wp_commandsParse h)) ?_
          fun _ hk => .line hread hl hk
        rintro _ _ ⟨rfl, r, s2, hp, hh⟩
        exact .line hread hl hp hh
      · have hl : ¬ IsLine bytes := fun hl => h1 (hline.mpr hl)
        refine wp_ite (fun h2 => ?_) (fun h2 => ?_)
        · obtain rfl : bytes = [] := List.eq_nil_of_length_eq_zero h2.2
          exact wp_seq wp_serverClientDisconnect fun _ _ hd => .closed hread hd
        · have hne : some bytes ≠ some [] := fun h => h2 ⟨rfl, by rw [Option.some.inj h]; rfl⟩
          refine wp_mono wp_notLine ?_ fun _ h => h
          rintro _ _ ⟨rfl, ⟨herr, rfl⟩ | ⟨herr, hs⟩⟩
          · exact .ignored hread hne hl herr
          · exact .stopped hread hne hl herr hs

/-! ### Starting and waiting -/

/-- The record once `VSFTPServerStart` has marked its sockets as absent; the one of
the transfer client is not among them. -/
def ServerData.unstarted (d : ServerData) : ServerData :=
  { d with transferSock := -1, serverSock := -1, clientSock := -1 }

/-- The outcome of `VSFTPServerStart`. -/
inductive Starting (os : Os) (s : St) : Int → St → Prop
  | failed {r : Int} {d : ServerData} {L : List Event}
      (hd : Entering os s.log s.data.rootPath s.data.unstarted r d L) (hr : r ≠ 0) :
      Starting os s r ⟨d, L ++ s.log⟩
  | uncreated {r : Int} {d : ServerData} {L C : List Event}
      (hd : Entering os s.log s.data.rootPath s.data.unstarted 0 d L)
      (hC : Creates d.port r (os.socket (L ++ s.log)) C) (hr : r ≠ 0) :
      Starting os s r
        ⟨{ d with transferModeBinary := true, serverSock := os.socket (L ++ s.log) },
          C ++ (L ++ s.log)⟩
  | started {d : ServerData} {L C : List Event}
      (hd : Entering os s.log s.data.rootPath s.data.unstarted 0 d L)
      (hC : Creates d.port 0 (os.socket (L ++ s.log)) C) :
      Starting os s 0 ⟨{ d with transferModeBinary := true, serverSock := os.socket (L ++ s.log),
                                isServerSocketCreated := true }, C ++ (L ++ s.log)⟩

theorem wp_serverStart (hroot : filesystemIsAbsPath s.data.rootPath = 0)
    (hpos : 0 < s.data.rootPathLen) :
    wp os serverStart (Starting os s) (Killed os ⟨s.data.unstarted, s.log⟩) s := by
  unfold serverStart
  refine (wp_bind _ _).mpr ((wp_modifyData _).mpr ((wp_bind _ _).mpr (wp_getData.mpr ?_)))
  refine wp_seq (wp_serverSetCwd hroot hpos) ?_
  rintro r ⟨d, _⟩ ⟨L, hd, rfl⟩
  by_cases hr : r = 0
  · subst hr
    rw [onOk_zero]
    refine (wp_bind _ _).mpr ((wp_bind _ _).mpr ((wp_modifyData _).mpr ((wp_bind _ _).mpr
      (wp_getData.mpr ?_))))
    refine wp_mono wp_createPassiveSocket ?_ fun _ h => h
    rintro r _ ⟨C, hC, rfl⟩
    by_cases hr : r = 0
    · subst hr
      exact Starting.started (d := d) hd hC
    · rw [onOk_of_ne hr]
      exact Starting.uncreated (d := d) hd hC hr
  · simp only [onOk_of_ne hr, pure_bind]
    exact .failed hd hr

/-- The log once `accept` has answered. -/
def acceptedLog (os : Os) (s : St) : Log :=
  .accept .server s.data.serverSock (os.accept s.log s.data.serverSock) :: s.log

/-- The record with the client that `accept` has answered. -/
def acceptedData (os : Os) (s : St) : ServerData :=
  { s.data with clientSock := os.accept s.log s.data.serverSock }

/-- The reply that greets a client. -/
def greeting : List Byte := ascii "220 Service ready for new user." ++ crlf

/-- The outcome of `WaitForIncomingConnection`. -/
inductive Waiting (os : Os) (s : St) : Int → St → Prop
  | idle (ha : os.accept s.log s.data.serverSock < 0)
      (herr : os.errno (acceptedLog os s) = eagain) :
      Waiting os s 0 ⟨acceptedData os s, acceptedLog os s⟩
  | stopped {s' : St} (ha : os.accept s.log s.data.serverSock < 0)
      (herr : os.errno (acceptedLog os s) ≠ eagain)
      (h : Stops ⟨acceptedData os s, acceptedLog os s⟩ s') : Waiting os s 0 s'
  | homeless {r : Int} {d : ServerData} {L : List Event}
      (ha : 0 ≤ os.accept s.log s.data.serverSock)
      (hd : Entering os (acceptedLog os s) s.data.rootPath (acceptedData os s) r d L) (hr : r ≠ 0) :
      Waiting os s r ⟨d, L ++ acceptedLog os s⟩
  | ungreeted {d : ServerData} {L : List Event} (ha : 0 ≤ os.accept s.log s.data.serverSock)
      (hd : Entering os (acceptedLog os s) s.data.rootPath (acceptedData os s) 0 d L)
      (hw : os.write (L ++ acceptedLog os s) d.clientSock greeting = -1) :
      Waiting os s (-1) ⟨d, .write .client d.clientSock greeting (-1) :: (L ++ acceptedLog os s)⟩
  | connected {d : ServerData} {L : List Event} {w : Int}
      (ha : 0 ≤ os.accept s.log s.data.serverSock)
      (hd : Entering os (acceptedLog os s) s.data.rootPath (acceptedData os s) 0 d L)
      (hw : os.write (L ++ acceptedLog os s) d.clientSock greeting = w) (hne : w ≠ -1) :
      Waiting os s 0 ⟨{ d with isConnected := true },
        .write .client d.clientSock greeting w :: (L ++ acceptedLog os s)⟩

/-- The end of `WaitForIncomingConnection`: the client counts as connected once it is
greeted. -/
theorem wp_greet {d : ServerData} {log : Log} :
    wp os (do
      let retval ← serverSendReply (ascii "220 Service ready for new user.")
      onOk retval (do
        modifyData fun d => { d with isConnected := true }
        pure retval) : ServerM Int)
      (fun r s' => ∃ w, os.write log d.clientSock greeting = w ∧
        (w = -1 ∧ r = -1 ∧ s' = ⟨d, .write .client d.clientSock greeting w :: log⟩ ∨
          w ≠ -1 ∧ r = 0 ∧
            s' = ⟨{ d with isConnected := true }, .write .client d.clientSock greeting w :: log⟩))
      E ⟨d, log⟩ := by
  refine wp_seq (wp_serverSendReply_write (by decide)) ?_
  rintro _ _ ⟨rfl, rfl⟩
  refine wp_onOk (fun h0 => ⟨_, rfl, Or.inr ⟨fun hw => ?_, h0, rfl⟩⟩)
    (fun hne => ⟨_, rfl, Or.inl ?_⟩)
  · exact absurd ((if_pos hw).symm.trans h0) (by decide)
  · by_cases hw : os.write log d.clientSock greeting = -1
    · exact ⟨hw, if_pos hw, rfl⟩
    · exact absurd (if_neg hw) hne

theorem wp_waitForIncomingConnection (hroot : filesystemIsAbsPath s.data.rootPath = 0)
    (hpos : 0 < s.data.rootPathLen) :
    wp os waitForIncomingConnection (Waiting os s) (fun s' =>
      0 ≤ os.accept s.log s.data.serverSock ∧ Killed os ⟨acceptedData os s, acceptedLog os s⟩ s')
      s := by
  unfold waitForIncomingConnection
  refine (wp_bind _ _).mpr (wp_getData.mpr ((wp_bind _ _).mpr ((wp_call _ _).mpr
    ((wp_bind _ _).mpr ((wp_modifyData _).mpr ?_)))))
  refine wp_ite (fun ha => ?_) (fun ha => ?_)
  · refine wp_seq (wp_mono (wp_serverSetCwd hroot hpos) (fun _ _ h => h) fun _ h => ⟨ha, h⟩) ?_
    rintro r ⟨d, _⟩ ⟨L, hd, rfl⟩
    by_cases hr : r = 0
    · subst hr
      rw [onOk_zero]
      refine wp_mono wp_greet ?_ fun _ h => h
      rintro _ _ ⟨w, hw, ⟨rfl, rfl, rfl⟩ | ⟨hne, rfl, rfl⟩⟩
      · exact .ungreeted ha hd hw
      · exact Waiting.connected (d := d) ha hd hw hne
    · simp only [onOk_of_ne hr, pure_bind]
      exact .homeless ha hd hr
  · refine (wp_bind _ _).mpr ((wp_peek _).mpr (wp_ite (fun herr => ?_) (fun herr => ?_)))
    · exact .idle (by omega) herr
    · exact wp_seq wp_serverStop fun _ _ h => .stopped (by omega) herr h

/-! ### The handler -/

/-- What `main` and `VSFTPServerInitialize` have set up, and what never changes
afterwards: the root path is canonical and known with its length, and the address
fits its array. -/
structure Configured (d : ServerData) : Prop where
  canonical : Path.Canonical (47 : Byte) d.rootPath
  noNul : NoNul d.rootPath
  length_eq : d.rootPathLen = d.rootPath.length
  length_lt : d.rootPath.length < pathLenMax
  addressed : Addressed d.ipAddr

theorem Configured.isAbsPath {d : ServerData} (h : Configured d) :
    filesystemIsAbsPath d.rootPath = 0 := filesystemIsAbsPath_of_canonical h.canonical

theorem Configured.length_pos {d : ServerData} (h : Configured d) : 0 < d.rootPathLen := by
  rw [h.length_eq]
  exact h.canonical.length_pos

/-- The outcome of `VSFTPServerHandler`. -/
inductive Step (os : Os) (s : St) : Int → St → Prop
  | starting {r : Int} {s' : St} (h : s.data.isServerSocketCreated = false)
      (hs : Starting os s r s') : Step os s r s'
  | waiting {r : Int} {s' : St} (h : s.data.isServerSocketCreated = true)
      (hc : s.data.isConnected = false) (hs : Waiting os s r s') : Step os s r s'
  | conversing {r : Int} {s' : St} (h : s.data.isServerSocketCreated = true)
      (hc : s.data.isConnected = true) (hs : Conversing os s r s') : Step os s r s'

/-- A call of `VSFTPServerHandler` in which the process was killed. -/
inductive Killing (os : Os) (s : St) : St → Prop
  | starting {s' : St} (h : s.data.isServerSocketCreated = false)
      (hs : Killed os ⟨s.data.unstarted, s.log⟩ s') : Killing os s s'
  | waiting {s' : St} (h : s.data.isServerSocketCreated = true) (hc : s.data.isConnected = false)
      (ha : 0 ≤ os.accept s.log s.data.serverSock)
      (hs : Killed os ⟨acceptedData os s, acceptedLog os s⟩ s') : Killing os s s'
  | conversing {s' : St} (h : s.data.isServerSocketCreated = true)
      (hc : s.data.isConnected = true) (hs : ConversingKilled os s s') : Killing os s s'

/-- **One call of the handler is a step**, unless the process is killed printing the
working directory or by the NUL behind a full buffer. -/
theorem wp_serverHandler (h : Configured s.data) :
    wp os serverHandler (Step os s) (Killing os s) s := by
  unfold serverHandler
  refine (wp_bind _ _).mpr (wp_getData.mpr (wp_ite (fun hs => ?_) (fun hs => ?_)))
  · exact wp_mono (wp_serverStart h.isAbsPath h.length_pos) (fun _ _ => .starting hs)
      fun _ => .starting hs
  · have hs' : s.data.isServerSocketCreated = true := by simpa using hs
    refine wp_ite (fun hc => ?_) (fun hc => ?_)
    · exact wp_mono (wp_waitForIncomingConnection h.isAbsPath h.length_pos)
        (fun _ _ => .waiting hs' hc)
        fun _ h => .waiting hs' hc h.1 h.2
    · have hc' : s.data.isConnected = true := by simpa using hc
      exact wp_mono (wp_handleConnection h.addressed) (fun _ _ => .conversing hs' hc')
        fun _ => .conversing hs' hc'

/-- A call of the handler that returned was a step. -/
theorem Step.of_run (h : Configured s.data) {r : Int} {s' : St}
    (hr : serverHandler os s = (some r, s')) : Step os s r s' := of_wp_run (wp_serverHandler h) hr

/-- A call of the handler that did not return was a killing. -/
theorem Killing.of_run (h : Configured s.data) {s' : St}
    (hr : serverHandler os s = (none, s')) : Killing os s s' := by
  have hwp := @wp_serverHandler os s h
  unfold wp at hwp
  rw [hr] at hwp
  exact hwp

/-- **A step in which a line is received** parses it, and `HandleConnection` goes on
from what that returns. -/
theorem Step.of_line {bytes : List Byte} {r : Int} {s' : St}
    (hcreated : s.data.isServerSocketCreated = true) (hconnected : s.data.isConnected = true)
    (hread : received os s = some bytes) (hline : IsLine bytes) (h : Step os s r s') :
    r = 0 ∧ ∃ r1 s2, Parsing os (lineState s bytes) (lineBuffer bytes) (bytes.length - 2) r1 s2 ∧
      Handled s2 r1 s' := by
  cases h with
  | starting h => simp [hcreated] at h
  | waiting _ hc => simp [hconnected] at hc
  | conversing _ _ hs =>
    cases hs with
    | line hread' _ hp hh =>
      obtain rfl := Option.some.inj (hread.symm.trans hread')
      exact ⟨rfl, _, _, hp, hh⟩
    | closed hread' =>
      obtain rfl := Option.some.inj (hread.symm.trans hread')
      exact absurd hline (by decide)
    | ignored hread' _ hline' =>
      obtain rfl := hread.symm.trans hread'
      exact absurd hline hline'
    | stopped hread' _ hline' =>
      obtain rfl := hread.symm.trans hread'
      exact absurd hline hline'

/-! ### The handler of a command in a turn -/

/-- In a turn from `s` the handler of a command is called with an array and a length,
in the state that is given last. -/
inductive Called (os : Os) (s : St) : Command → List Byte → ℕ → St → Prop
  | mk {bytes name : List Byte} {c : Command} (hcreated : s.data.isServerSocketCreated = true)
      (hconnected : s.data.isConnected = true) (hread : received os s = some bytes)
      (hline : IsLine bytes) (hfind : commandFind (lineBuffer bytes) = some (name, c)) :
      Called os s c (argsArray (lineBuffer bytes) (bytes.length - 2) name)
        (argsLen (lineArgs (lineBuffer bytes) (bytes.length - 2) name))
        (calledState (lineState s bytes) (lineBuffer bytes) (bytes.length - 2) name c)

/-- **A step in which a handler is called** is its outcome and what
`HandleConnection` does afterwards. -/
theorem Step.of_called {c : Command} {args : List Byte} {len : ℕ} {s1 s' : St} {r : Int}
    (hcall : Called os s c args len s1) (h : Step os s r s') :
    r = 0 ∧ ∃ r1 s2, Outcome os s1 args len c r1 s2 ∧ Handled s2 r1 s' := by
  obtain ⟨hcreated, hconnected, hread, hline, hfind⟩ := hcall
  obtain ⟨hr, r1, s2, hp, hh⟩ := h.of_line hcreated hconnected hread hline
  cases hp with
  | known hfind' ho =>
    obtain ⟨rfl, rfl⟩ := Prod.mk.inj (Option.some.inj (hfind.symm.trans hfind'))
    exact ⟨hr, r1, s2, ho, hh⟩
  | unknown hfind' => simp [hfind] at hfind'

end VsFtp
