import VsFtp.Listening
import VsFtp.Mapping
import VsFtp.Lib.Triple

/-!
# What the log shows of a session

Which directory a client is in, and which transfer mode it has set, are fields of the server's
record.  They can also be told from outside, by the answers of `realpath` and by the replies that
were sent.  A view is what has been told so far; and what the server may say, and what it may ask
the file system about, is a condition on the view.

## Main definitions

* `View` — what the log shows of the session.
* `View.tells` — the replies that a server may send that is true to its session.
* `View.asks` — the path that an argument stands for.
* `Event.justified` — what the file system may be asked.
* `honesty` — the contract: replies are true, and questions are justified.
* `Matches` — the record agrees with the view.

## Main results

* `keeps_filesystemGetRealPath`, `keeps_serverServerPathToRealPath`, `keeps_serverSetCwd` — the
  path functions, one triple for each.
* `keeps_serverStop`, `keeps_serverClientDisconnect` — the ends of a session.
-/

namespace VsFtp

open CString Prog

attribute [local irreducible] serverSendReply helpText

/-! ### Views -/

/-- What the log shows of the session. -/
structure View where
  connected : Bool
  /-- The transfer mode that was confirmed last. -/
  binary : Bool
  /-- The directory that was confirmed last. -/
  cwd : List Byte
  /-- What `realpath` has returned last. -/
  resolved : List Byte
  /-- What `stat` has answered last. -/
  stated : Option Stat
  /-- The command whose handler is called, with its arguments. -/
  command : Option (Command × List Byte)
  deriving DecidableEq

/-- The view before `main` starts, on a command line with this root path. -/
def View.init (rootPath : List Byte) : View := ⟨false, false, [], rootPath, none, none⟩

/-- The view after a reply. -/
def View.told (v : View) (text : List Byte) (w : Int) : View :=
  if v.connected = false then { v with cwd := v.resolved, connected := decide (w ≠ -1) }
  else
    match v.command with
    | some (.cwd, _) => if ascii "250" <+: text then { v with cwd := v.resolved } else v
    | some (.type, _) =>
        if w = -1 then v
        else if ascii "200 Switching to Binary" <+: text then { v with binary := true }
        else if ascii "200 Switching to ASCII" <+: text then { v with binary := false }
        else v
    | _ => v

/-- The view after a record.  A socket that is made while no client is connected is the one the
server listens on: its directory is entered, and the transfer mode is set. -/
def Event.view (e : Event) (v : View) : View :=
  match e with
  | .socket _ => if v.connected then v else { v with cwd := v.resolved, binary := true }
  | .realpath _ (some r) => { v with resolved := r }
  | .stat _ st => { v with stated := st }
  | .request _ _ => { v with command := none }
  | .dispatch c args => { v with command := some (c, args.elim [] Args.bytes) }
  | .write .client _ text w => v.told text w
  | .disconnect => { v with connected := false }
  | .stopped => { v with connected := false }
  | _ => v

/-! ### What a server may say -/

/-- What comes out of printing the directory as a format, with its length as the argument: unless it
has a conversion that lacks its argument, that is determined. -/
def Printed (cwd path : List Byte) : Prop :=
  ∀ text, formatText cwd cwd.length = some text → path = text

/-- The transfer mode that the arguments of `TYPE` ask for. -/
def typeMode (args : List Byte) : Option Bool :=
  if args = ascii "I" ∨ args = ascii "i" then some true
  else if args = ascii "A" ∨ args = ascii "a" then some false
  else none

/-- The replies to a command, without the line end, that are true in a view. -/
def Command.tells (c : Command) (root ip args : List Byte) (v : View) (text : List Byte) : Prop :=
  match c with
  | .user => text = if args = ascii "anonymous" then ascii "230 User logged in, proceed."
      else ascii "530 Login incorrect."
  | .syst => text = ascii "215 UNIX Type: L8"
  | .pasv => text = pasvReply (commas ip) 156 64 ∨ text = ascii "425 Cannot open data connection."
  | .nlst => text = ascii "150 Here comes the directory listing." ∨
      text = ascii "226 Directory send OK." ∨ text = ascii "550 Permission Denied."
  | .pwd => (∃ path, (∀ dir, formatText v.cwd v.cwd.length = some dir → path = shownPath root dir) ∧
        text = ascii "257 \"" ++ path ++ ascii "\"") ∨ text = ascii "550 Failed to get directory."
  | .cwd => text = ascii "250 Directory successfully changed." ∨
      text = ascii "550 Failed to change directory."
  | .retr => text = retrReply v.binary (cstr args) ∨ text = ascii "226 Transfer Complete." ∨
      text = ascii "551 File not found." ∨ text = localError
  | .size => (∃ st, v.stated = some st ∧ text = ascii "213 " ++ decimal st.size) ∨
      text = ascii "550 File not found." ∨ text = localError
  | .type => text = match typeMode args with
      | some true => ascii "200 Switching to Binary mode."
      | some false => ascii "200 Switching to ASCII mode."
      | none => ascii "504 Command not implemented for that parameter."
  | .help => helpText = some text
  | .quit => text = ascii "221 Bye."

/-- The replies, without the line end, that are true in a view. -/
def View.tells (root ip : List Byte) (v : View) (text : List Byte) : Prop :=
  if v.connected = false then text = ascii "220 Service ready for new user."
  else
    match v.command with
    | none => text = ascii "502 Command not implemented."
    | some (c, args) => c.tells root ip args v text

/-- The commands whose argument is a path. -/
def Command.takesPath (c : Command) : Bool := c = .cwd || c = .nlst || c = .retr || c = .size

/-- The path that the argument of the command stands for: an absolute one continues the root path,
as far as both fit into the array, and a relative one the working directory. -/
def View.asks (root : List Byte) (v : View) (path : List Byte) : Prop :=
  ∃ c args, v.command = some (c, args) ∧ c.takesPath = true ∧
    if filesystemIsAbsPath (cstr args) = 0 then
      if (root ++ cstr args).length < pathLenMax then path = root ++ cstr args
      else (root ++ cstr args).take pathLenMax <+: path
    else ∃ dir, Printed v.cwd dir ∧ path = dir ++ 47 :: cstr args

/-- The file system is asked about what was resolved last, about the root path while no client is
connected, or about what the command asks for. -/
def Event.justified (root : List Byte) (e : Event) (v : View) : Prop :=
  match e with
  | .realpath path _ => path = v.resolved ∨ path = root ∧ v.connected = false ∨
      v.connected = true ∧ v.asks root path
  | .stat path _ => path = v.resolved
  | .access path _ => path = v.resolved
  | .openFile path _ => path = v.resolved
  | .opendir path _ => path = v.resolved ∨ Printed v.cwd path
  | _ => True

/-- The condition on each record: a reply is true in the view and fits, and the file system is asked
only about what is justified. -/
def Event.honest (root ip : List Byte) (e : Event) (v : View) : Prop :=
  match e with
  | .write .client _ bytes _ =>
      ∃ text, bytes = text ++ crlf ∧ bytes.length < responseLenMax ∧ v.tells root ip text
  | e => e.justified root v

/-- The contract of a server with this root path and address. -/
def honesty (root : List Byte) (argv : Argv) : Contract Event View where
  next := Event.view
  guard := Event.honest root argv.ipAddr
  init := View.init argv.rootPath

/-- The view of a log. -/
abbrev viewOf (argv : Argv) (log : Log) : View :=
  Monitor.phase Event.view (View.init argv.rootPath) log

/-! ### The record and the view -/

/-- What the record has in common with the view while the configuration is in force, whatever the
working directory is. -/
structure Agrees (root : List Byte) (argv : Argv) (conn : Bool)
    (cmd : Option (Command × List Byte)) (d : ServerData) (v : View) : Prop where
  configured : Configured d
  located : Located argv.ipAddr d
  rootPath : d.rootPath = root
  isConnected : d.isConnected = conn
  connected : v.connected = conn
  command : v.command = cmd
  binary : d.transferModeBinary = v.binary

/-- What the record has in common with the view, the working directory included. -/
structure Attends (root : List Byte) (argv : Argv) (conn : Bool)
    (cmd : Option (Command × List Byte)) (d : ServerData) (v : View) : Prop
    extends Agrees root argv conn cmd d v where
  cwd : d.cwd = v.cwd
  cwdLen : d.cwdLen = v.cwd.length
  noNul : NoNul v.cwd

/-- **The record agrees with the view.** -/
def Matches (root : List Byte) (argv : Argv) (d : ServerData) (v : View) : Prop :=
  ∃ conn cmd, Attends root argv conn cmd d v

section Assertions

variable {root : List Byte} {argv : Argv} {conn : Bool} {cmd : Option (Command × List Byte)}
  {d d' : ServerData} {v : View}

theorem Located.of_config {ip : List Byte} (h : Located ip d) (he : d'.config = d.config) :
    Located ip d' := by
  simp only [ServerData.config, Prod.mk.injEq] at he
  exact ⟨h.valid, he.2.2.2.1.trans h.stored⟩

@[simp] theorem ServerData.setSock_config (slot : Slot) (fd : Int) :
    (d.setSock slot fd).config = d.config := by cases slot <;> rfl

/-- The sockets have no part in the agreement of record and view. -/
theorem Agrees.setSock (h : Agrees root argv conn cmd d v) (slot : Slot) (fd : Int) :
    Agrees root argv conn cmd (d.setSock slot fd) v := by
  have hc := ServerData.setSock_config (d := d) slot fd
  refine ⟨h.configured.of_config hc, h.located.of_config hc, ?_, ?_, h.connected, h.command, ?_⟩
  · cases slot <;> exact h.rootPath
  · cases slot <;> exact h.isConnected
  · cases slot <;> exact h.binary

theorem Attends.setSock (h : Attends root argv conn cmd d v) (slot : Slot) (fd : Int) :
    Attends root argv conn cmd (d.setSock slot fd) v :=
  ⟨h.toAgrees.setSock slot fd, by cases slot <;> exact h.cwd, by cases slot <;> exact h.cwdLen,
    h.noNul⟩

/-- What was looked up has no part in the agreement of record and view. -/
theorem Agrees.looks (h : Agrees root argv conn cmd d v) (r : List Byte) (st : Option Stat) :
    Agrees root argv conn cmd d { v with resolved := r, stated := st } :=
  ⟨h.configured, h.located, h.rootPath, h.isConnected, h.connected, h.command, h.binary⟩

theorem Attends.looks (h : Attends root argv conn cmd d v) (r : List Byte) (st : Option Stat) :
    Attends root argv conn cmd d { v with resolved := r, stated := st } :=
  ⟨h.toAgrees.looks r st, h.cwd, h.cwdLen, h.noNul⟩

theorem Attends.matches (h : Attends root argv conn cmd d v) : Matches root argv d v := ⟨_, _, h⟩

end Assertions

/-! ### Sockets -/

section Triples

variable {os : Os} {root : List Byte} {argv : Argv} {R : ServerData → View → Prop}

/-- The triples of this contract.  Where the process may end, the record agrees with the view. -/
abbrev Keeps {α : Type} (os : Os) (root : List Byte) (argv : Argv) (R : ServerData → View → Prop)
    (m : ServerM α) (Q : α → ServerData → View → Prop) : Prop :=
  Tracks (honesty root argv) os (Matches root argv) R m Q

/-- A call that shows nothing. -/
theorem keeps_call {ρ : Type} {answer : Os → Log → ρ} {record : ρ → Event}
    (hg : ∀ a v, (record a).honest root argv.ipAddr v) (hv : ∀ a v, (record a).view v = v) :
    Keeps os root argv R (call answer record) (fun _ => R) := Tracks.call_silent hg hv

/-- A mark that shows nothing. -/
theorem keeps_emit {e : Event} (hg : ∀ v, e.honest root argv.ipAddr v) (hv : ∀ v, e.view v = v) :
    Keeps os root argv R (emit e) (fun _ => R) := Tracks.emit_silent hg hv

theorem keeps_onOk_call {answer : Os → Log → Int} {record : Int → Event} {retval : Int}
    (hg : ∀ a v, (record a).honest root argv.ipAddr v) (hv : ∀ a v, (record a).view v = v) :
    Keeps os root argv R (onOk retval (call answer record)) (fun _ => R) :=
  .onOk (fun _ => keeps_call hg hv) fun _ _ _ h => h

theorem keeps_closeSocket {slot : Slot} (hR : ∀ d v, R d v → R (d.setSock slot (-1)) v) :
    Keeps os root argv R (closeSocket slot) (fun _ => R) := by
  apply Tracks.bind_getData
  intro a
  apply Tracks.strengthen (R := R)
  swap
  · intro d v h
    exact h.2
  apply Tracks.bind (keeps_onOk_call (by intros; trivial) (by intros; rfl))
  intro retval
  apply Tracks.bind (keeps_onOk_call (by intros; trivial) (by intros; rfl))
  intro retval
  exact .bind (.modifyData hR) fun _ => .pure fun _ _ h => h

/-- Whatever the socket is, the view is told that there is one. -/
theorem keeps_createPassiveSocket {Q : ServerData → View → Prop} {port : UInt16} {slot : Slot}
    (h : ∀ d v fd fd', R d v → Q (d.setSock slot fd') ((Event.socket fd).view v)) :
    Keeps os root argv R (createPassiveSocket port slot) (fun _ => Q) := by
  apply Tracks.bind (Q := fun _ d v => ∀ fd, Q (d.setSock slot fd) v)
  · apply Tracks.call
    intro log d v hR
    exact ⟨trivial, fun fd' => h d v (os.socket log) fd' hR⟩
  intro fd
  apply Tracks.bind (Q := fun _ => Q)
  · apply Tracks.modifyData
    intro d v h
    exact h fd
  intro _
  apply Tracks.bind (keeps_onOk_call (by intros; trivial) (by intros; rfl))
  intro retval
  apply Tracks.bind (keeps_onOk_call (by intros; trivial) (by intros; rfl))
  intro retval
  apply Tracks.bind (keeps_onOk_call (by intros; trivial) (by intros; rfl))
  intro retval
  apply Tracks.bind (keeps_onOk_call (by intros; trivial) (by intros; rfl))
  intro retval
  apply Tracks.ite
  · intro _
    exact .pure fun _ _ h => h
  · intro _
    apply Tracks.bind (keeps_call (by intros; trivial) (by intros; rfl))
    intro _
    apply Tracks.bind (keeps_call (by intros; trivial) (by intros; rfl))
    intro _
    exact .pure fun _ _ h => h

/-! ### The end of a session -/

/-- The mark for the end of a session is set: the record is yet to follow. -/
def Parting (root : List Byte) (argv : Argv) (d : ServerData) (v : View) : Prop :=
  Matches root argv { d with isConnected := false } v

theorem Parting.setSock {d : ServerData} {v : View}
    (h : Parting root argv d v) (slot : Slot) (fd : Int) :
    Parting root argv (d.setSock slot fd) v := by
  obtain ⟨conn, cmd, h⟩ := h
  refine ⟨conn, cmd, ?_⟩
  have hset := h.setSock slot fd
  cases slot <;> exact hset

/-- A mark for the end of a session. -/
theorem keeps_mark {e : Event} (hg : ∀ v, e.honest root argv.ipAddr v)
    (hv : ∀ v, e.view v = { v with connected := false }) :
    Keeps os root argv (Matches root argv) (emit e) (fun _ => Parting root argv) := by
  apply Tracks.emit
  rintro d v ⟨conn, cmd, h⟩
  refine ⟨hg v, false, cmd, ?_⟩
  show Attends root argv false cmd _ (Event.view e v)
  rw [hv]
  exact { h with
    configured := h.configured.of_config rfl, located := h.located.of_config rfl
    isConnected := rfl, connected := rfl }

/-- Closing the sockets of the client. -/
theorem keeps_close (slot : Slot) :
    Keeps os root argv (Parting root argv) (closeSocket slot) (fun _ => Parting root argv) :=
  keeps_closeSocket fun _ _ h => h.setSock slot (-1)

theorem keeps_serverClientDisconnect :
    Keeps os root argv (Matches root argv) serverClientDisconnect (fun _ => Matches root argv) := by
  apply Tracks.bind (keeps_mark (by intros; trivial) (by intros; rfl))
  intro _
  apply Tracks.bind (keeps_close .transferClient)
  intro _
  apply Tracks.bind (keeps_close .transfer)
  intro _
  apply Tracks.bind (keeps_close .client)
  intro _
  exact .bind (.modifyData fun _ _ h => h) fun _ => .pure fun _ _ h => h

theorem keeps_serverStop :
    Keeps os root argv (Matches root argv) serverStop (fun _ => Matches root argv) := by
  apply Tracks.bind (keeps_mark (by intros; trivial) (by intros; rfl))
  intro _
  apply Tracks.bind (keeps_close .transferClient)
  intro _
  apply Tracks.bind (keeps_close .transfer)
  intro _
  apply Tracks.bind (keeps_close .client)
  intro _
  apply Tracks.bind_getData
  intro a
  apply Tracks.bind (Q := fun _ => Parting root argv)
  · apply Tracks.strengthen (R := Parting root argv)
    · apply Tracks.ite
      · intro _
        apply Tracks.bind (keeps_call (by intros; trivial) (by intros; rfl))
        intro _
        apply Tracks.bind (keeps_call (by intros; trivial) (by intros; rfl))
        intro _
        apply Tracks.modifyData
        intro d v h
        exact h.setSock .server (-1)
      · intro _
        exact .pure fun _ _ h => h
    · intro d v h
      exact h.2
  · intro _
    exact .bind (.modifyData fun _ _ ⟨_, _, h⟩ => ⟨_, _, { h with
      configured := h.configured.of_config rfl, located := h.located.of_config rfl }⟩)
      fun _ => .pure fun _ _ h => h

/-! ### Looking things up -/

/-- A canonical path that fits a buffer. -/
structure IsPath (path : List Byte) : Prop where
  canonical : Path.Canonical (47 : Byte) path
  noNul : NoNul path
  length_lt : path.length < pathLenMax

/-- The output of a function that resolves a path: if it succeeds, it is what was resolved. -/
def Found (out : PathOut) (v : View) : Prop := out.retval = 0 →
  IsPath v.resolved ∧ out = ⟨0, strncpy [] 0 v.resolved pathLenMax, v.resolved.length⟩

/-- The output of `VSFTPServerGetCwd`. -/
def GotHome (out : PathOut) (d : ServerData) : Prop :=
  out.retval = 0 → ∃ dir, (∀ text, formatText d.cwd d.cwdLen = some text → dir = text) ∧
    dir.length < pathLenMax ∧ out = ⟨0, dir ++ [0], dir.length⟩

variable {Q : ServerData → View → Prop}

/-- Whatever is resolved, it is what the contract allows to ask about. -/
theorem keeps_filesystemGetRealPath {cwd : Option (List Byte)} {cwdLen : ℕ} {path : List Byte}
    {pathLen : ℕ} (hQ : ∀ d v, R d v → Q d v ∧ ∀ r, Q d { v with resolved := r })
    (hask : ∀ p d v, realPathTarget cwd cwdLen path pathLen = some p → R d v →
      (Event.realpath p none).honest root argv.ipAddr v) :
    Keeps os root argv R (filesystemGetRealPath cwd cwdLen path pathLen [] pathLenMax 0)
      (fun out d v => Q d v ∧ Found out v) := by
  have hfail : ∀ {d v}, R d v → Q d v ∧ Found ⟨-1, [], 0⟩ v := fun hR =>
    ⟨(hQ _ _ hR).1, fun h => absurd h (by decide)⟩
  unfold filesystemGetRealPath
  apply Tracks.ite
  swap
  · intro _
    exact .pure fun _ _ => hfail
  intro _
  cases htarget : realPathTarget cwd cwdLen path pathLen with
  | none => exact .pure fun _ _ => hfail
  | some p =>
    apply Tracks.bind (Q := fun r d v => r.elim (R d v) fun r =>
      Q d v ∧ v.resolved = r ∧ Path.Canonical (47 : Byte) r ∧ NoNul r)
    · apply Tracks.call
      intro log d v hR
      have hg := hask p d v htarget hR
      cases ha : os.realpath log p with
      | none => exact ⟨hg, hR⟩
      | some r => exact ⟨hg, (hQ d v hR).2 r, rfl, os.realpath_canonical ha⟩
    intro r
    cases r with
    | none => exact .pure fun _ _ => hfail
    | some r =>
      have hno : ∀ {d v}, Q d v → Q d v ∧ Found ⟨-1, [], 0⟩ v := fun h =>
        ⟨h, fun h => absurd h (by decide)⟩
      apply Tracks.assume (fun _ _ h => h.2.2)
      rintro ⟨hcanon, hn⟩
      apply Tracks.ite
      · intro hlen
        apply Tracks.pure
        rintro d v ⟨hq, rfl, -⟩
        refine ⟨hq, fun _ => ?_⟩
        -- it is shorter than the buffer, so it was measured right
        have hlt : v.resolved.length < pathLenMax := by
          by_contra hle
          rw [strnlen_of_le hn (Nat.le_of_not_lt hle)] at hlen
          exact absurd hlen (by decide)
        rw [strnlen_of_length_lt hn hlt.le]
        exact ⟨⟨hcanon, hn, hlt⟩, rfl⟩
      · intro _
        exact .pure fun _ _ h => hno h.1

theorem keeps_filesystemHasKind {kind : FileKind} {path : List Byte} {len : ℕ}
    (hstat : ∀ d v st, R d v → R d { v with stated := st })
    (hpath : ∀ d v, R d v → path = v.resolved) :
    Keeps os root argv R (filesystemHasKind kind path len) (fun _ => R) := by
  unfold filesystemHasKind
  apply Tracks.ite
  · intro _
    apply Tracks.bind (Q := fun _ => R) (.peek fun _ _ _ h => h)
    intro leftover
    apply Tracks.bind (Q := fun _ => R)
    · apply Tracks.call
      intro log d v hR
      exact ⟨hpath d v hR, hstat d v _ hR⟩
    · intro _
      exact .pure fun _ _ h => h
  · intro _
    exact .pure fun _ _ h => h

/-- The string at the start of an array. -/
theorem keeps_readString {a : List Byte} : Keeps os root argv R (readString a)
    (fun out d v => R d v ∧ ∃ t, out = cstr (a ++ t)) := by
  apply Tracks.bind (Q := fun _ => R) (.peek fun _ _ _ h => h)
  intro behind
  exact .pure fun _ _ h => ⟨h, behind, rfl⟩

/-- The string in a buffer that a path was resolved into. -/
theorem keeps_readString_found {r : List Byte} (hr : IsPath r) :
    Keeps os root argv R (readString (strncpy [] 0 r pathLenMax))
      (fun out d v => R d v ∧ out = r) := by
  apply keeps_readString.weaken
  rintro out d v ⟨h, t, rfl⟩
  exact ⟨h, cstr_strncpy hr.noNul hr.length_lt [] t⟩

/-- A path that was found is known. -/
theorem keeps_found {α : Type} {m : ServerM α} {Q : α → ServerData → View → Prop} {out : PathOut}
    (hok : out.retval = 0) (h : ∀ r, IsPath r → out = ⟨0, strncpy [] 0 r pathLenMax, r.length⟩ →
      Keeps os root argv (fun d v => R d v ∧ v.resolved = r) m Q) :
    Keeps os root argv (fun d v => R d v ∧ Found out v) m Q := by
  apply Tracks.strengthen (R := fun d v => ∃ r, (R d v ∧ v.resolved = r) ∧
    IsPath r ∧ out = ⟨0, strncpy [] 0 r pathLenMax, r.length⟩)
  swap
  · intro d v hfound
    exact ⟨v.resolved, ⟨hfound.1, rfl⟩, hfound.2 hok⟩
  apply Tracks.of_exists
  intro r
  apply Tracks.assume (fun _ _ h => h.2)
  rintro ⟨hr, hout⟩
  exact (h r hr hout).strengthen fun _ _ h => h.1

/-- The process may end while the directory is printed, and the record agrees with the view. -/
theorem keeps_serverGetCwd (hR : ∀ d v, R d v → Matches root argv d v) :
    Keeps os root argv R (serverGetCwd [] pathLenMax 0)
      (fun out d v => R d v ∧ GotHome out d) := by
  intro s hlog h
  refine wp_mono (wp_serverGetCwd (E := fun s' => s' = s) fun _ => rfl) ?_ ?_
  · rintro out _ ⟨hgot, rfl⟩
    refine ⟨hlog, h, ?_⟩
    cases hgot with
    | failed => exact fun h => absurd h (by simp)
    | got hfits =>
      intro _
      refine ⟨_, fun text htext => ?_, hfits.2, rfl⟩
      rw [cwdText, htext, Option.getD_some]
  · rintro _ rfl
    exact ⟨hlog, hR _ _ h⟩

/-! ### Paths -/

/-- A string that comes out of printing the working directory is read back from its buffer. -/
theorem Printed.cstr_append {cwd dir : List Byte} (h : Printed cwd dir) (hn : NoNul cwd)
    (t : List Byte) : Printed cwd (cstr (dir ++ [0] ++ t)) := by
  intro text htext
  obtain rfl := h text htext
  rw [List.append_assoc, List.singleton_append, cstr_append_nul (hn.formatText htext)]

/-- What an absolute path makes the server resolve. -/
theorem asks_absolute {d : ServerData} {v : View} {c : Command} {args : List Byte}
    (h : Agrees root argv true (some (c, args)) d v) (hc : c.takesPath = true)
    (habs : filesystemIsAbsPath (cstr args) = 0) (t : List Byte) :
    v.asks root (cstr (absoluteBuf d (cstr args) ++ t)) := by
  obtain rfl := h.rootPath
  have hn : NoNul (cstr args) := noNul_cstr args
  refine ⟨c, args, h.command, hc, ?_⟩
  rw [if_pos habs]
  split
  · next hfit => exact cstr_absoluteBuf_fits h.configured hn hfit t
  · next hlong =>
    have hlt := h.configured.length_lt
    have hbuf : absoluteBuf d (cstr args) = (d.rootPath ++ cstr args).take pathLenMax := by
      rw [absoluteBuf_overflow h.configured (Nat.le_of_not_lt hlong), List.take_append,
        List.take_of_length_le hlt.le]
    rw [hbuf]
    exact isPrefix_cstr_append ((h.configured.noNul.append hn).take _) t

/-- **A path is resolved that the argument stands for.** -/
theorem keeps_serverServerPathToRealPath {c : Command} {args : List Byte} {len : ℕ}
    (hc : c.takesPath = true) :
    Keeps os root argv (Attends root argv true (some (c, args)))
      (serverServerPathToRealPath (cstr args) len [] pathLenMax 0)
      (fun out d v => Attends root argv true (some (c, args)) d v ∧ Found out v) := by
  have hlooks : ∀ d v, Attends root argv true (some (c, args)) d v →
      Attends root argv true (some (c, args)) d v ∧
        ∀ r, Attends root argv true (some (c, args)) d { v with resolved := r } :=
    fun d v h => ⟨h, fun r => h.looks r v.stated⟩
  unfold serverServerPathToRealPath
  apply Tracks.ite
  swap
  · intro _
    exact .pure fun _ _ h => ⟨h, fun h => absurd h (by decide)⟩
  intro _
  apply Tracks.ite
  · intro habs
    apply Tracks.bind_getData
    intro a
    apply Tracks.bind keeps_readString
    intro path
    apply Tracks.assume (fun _ _ h => h.2)
    rintro ⟨t, rfl⟩
    apply keeps_filesystemGetRealPath
    · intro d v h
      exact hlooks d v h.1.2
    · rintro p d v htarget ⟨⟨rfl, h⟩, -⟩
      rw [realPathTarget, if_pos (isAbsPath_absolute h.configured _ t)] at htarget
      obtain rfl := Option.some.inj htarget
      exact Or.inr (Or.inr ⟨h.connected, asks_absolute h.toAgrees hc habs t⟩)
  · intro hrel
    apply Tracks.bind (keeps_serverGetCwd fun _ _ h => h.matches)
    intro cwd
    apply Tracks.ite
    swap
    · intro hno
      exact .pure fun _ _ h => ⟨h.1, fun h0 => absurd h0 hno⟩
    intro hok
    apply Tracks.bind keeps_readString
    intro dir
    apply keeps_filesystemGetRealPath
    · intro d v h
      exact hlooks d v h.1.1
    · rintro p d v htarget ⟨⟨h, hhome⟩, t, rfl⟩
      obtain ⟨dir, hprint, -, rfl⟩ := hhome hok
      rw [h.cwd, h.cwdLen] at hprint
      refine Or.inr (Or.inr ⟨h.connected, c, args, h.command, hc, ?_⟩)
      rw [if_neg hrel]
      refine ⟨_, Printed.cstr_append hprint h.noNul t, ?_⟩
      -- the target is the concatenation
      rw [realPathTarget, if_neg hrel] at htarget
      simp only [concatCwdAndPath] at htarget
      split at htarget
      · split at htarget
        · split at htarget
          · exact (Option.some.inj htarget).symm
          · exact absurd htarget (by simp)
        · exact absurd htarget (by simp)
      · exact absurd htarget (by simp)

/-- The outcome of `VSFTPServerSetCwd`: the directory that was resolved is entered, or it stays. -/
structure Enters (root : List Byte) (argv : Argv) (conn : Bool)
    (cmd : Option (Command × List Byte)) (retval : Int) (d : ServerData) (v : View) : Prop
    extends Agrees root argv conn cmd d v where
  noNul : NoNul v.cwd
  entered : retval = 0 →
    d.cwd = v.resolved ∧ d.cwdLen = v.resolved.length ∧ NoNul v.resolved
  stayed : retval ≠ 0 → d.cwd = v.cwd ∧ d.cwdLen = v.cwd.length

section SetCwd

variable {conn : Bool} {cmd : Option (Command × List Byte)}

theorem Attends.enters {retval : Int} {d : ServerData} {v : View}
    (h : Attends root argv conn cmd d v) (hr : retval ≠ 0) :
    Enters root argv conn cmd retval d v :=
  { h with entered := fun h0 => absurd h0 hr, stayed := fun _ => ⟨h.cwd, h.cwdLen⟩ }

/-- Once it is entered, it is the one that was resolved. -/
theorem Enters.attends_entered {d : ServerData} {v : View} (h : Enters root argv conn cmd 0 d v) :
    Attends root argv conn cmd d { v with cwd := v.resolved } :=
  { h with
    cwd := (h.entered rfl).1, cwdLen := (h.entered rfl).2.1, noNul := (h.entered rfl).2.2 }

theorem Enters.attends_stayed {retval : Int} {d : ServerData} {v : View}
    (h : Enters root argv conn cmd retval d v) (hr : retval ≠ 0) :
    Attends root argv conn cmd d v :=
  { h with cwd := (h.stayed hr).1, cwdLen := (h.stayed hr).2 }

/-- The tests of a path that was resolved, and storing it. -/
theorem keeps_enter {r : List Byte} (hr : NoNul r) :
    Keeps os root argv (fun d v => Attends root argv conn cmd d v ∧ v.resolved = r) (do
      let retval ← filesystemIsDir r r.length
      let retval ← onOk retval
        (serverAbsPathIsNotAboveRootPath (strncpy [] 0 r pathLenMax) r.length)
      onOk retval (
        if pathLenMax > r.length then do
          modifyData fun d => { d with cwd := r, cwdLen := r.length }
          pure 0
        else pure (-1))) (Enters root argv conn cmd) := by
  apply Tracks.bind (Q := fun _ d v => Attends root argv conn cmd d v ∧ v.resolved = r)
  · apply keeps_filesystemHasKind
    · intro d v st h
      exact ⟨h.1.looks v.resolved st, h.2⟩
    · intro d v h
      exact h.2.symm
  intro retval
  apply Tracks.bind (Q := fun _ d v => Attends root argv conn cmd d v ∧ v.resolved = r)
  · exact .onOk (fun _ => .bind_getData fun _ => .pure fun _ _ h => h.2) fun _ _ _ h => h
  intro retval
  apply Tracks.onOk
  swap
  · intro hne d v h
    exact h.1.enters hne
  intro _
  apply Tracks.ite
  · intro _
    apply Tracks.bind (Q := fun _ => Enters root argv conn cmd 0)
    · apply Tracks.modifyData
      rintro d v ⟨h, rfl⟩
      exact { h with
        configured := h.configured.of_config rfl, located := h.located.of_config rfl
        entered := fun _ => ⟨rfl, rfl, hr⟩, stayed := fun h0 => absurd rfl h0 }
    · intro _
      exact .pure fun _ _ h => h
  · intro _
    exact .pure fun _ _ h => h.1.enters (by decide)

/-- **The directory that was resolved is entered, or it stays.** -/
theorem keeps_serverSetCwd {dir : List Byte} {len : ℕ} (hdir : filesystemIsAbsPath dir = 0)
    (hR : ∀ d v, R d v → Attends root argv conn cmd d v ∧
      (Event.realpath dir none).honest root argv.ipAddr v) :
    Keeps os root argv R (serverSetCwd dir len) (Enters root argv conn cmd) := by
  -- an absolute path is resolved as it is, whatever the working directory
  have hresolve : ∀ {cwd : Option (List Byte)} {cwdLen : ℕ},
      Keeps os root argv R (filesystemGetRealPath cwd cwdLen dir len [] pathLenMax 0)
        (fun out d v => Attends root argv conn cmd d v ∧ Found out v) := by
    intro cwd cwdLen
    apply keeps_filesystemGetRealPath
    · intro d v h
      exact ⟨(hR d v h).1, fun r => (hR d v h).1.looks r v.stated⟩
    · intro p d v htarget h
      unfold realPathTarget at htarget
      rw [if_pos hdir] at htarget
      obtain rfl := Option.some.inj htarget
      exact (hR d v h).2
  unfold serverSetCwd
  apply Tracks.bind (keeps_serverGetCwd fun d v h => (hR d v h).1.matches)
  intro cwd
  apply Tracks.bind (Q := fun out d v => Attends root argv conn cmd d v ∧ Found out v)
  · apply Tracks.strengthen (R := R)
    · exact .ite (fun _ => .bind keeps_readString fun _ => hresolve.strengthen fun _ _ h => h.1)
        fun _ => hresolve
    · intro d v h
      exact h.1
  intro out
  by_cases hok : out.retval = 0
  · -- the path is in the buffer
    apply keeps_found hok
    rintro r hr rfl
    apply Tracks.bind (keeps_readString_found hr)
    intro realPath
    apply Tracks.assume (fun _ _ h => h.2)
    rintro rfl
    exact (keeps_enter hr.noNul).strengthen fun _ _ h => h.1
  · apply Tracks.bind keeps_readString
    intro realPath
    simp only [onOk_of_ne hok, pure_bind]
    exact .pure fun _ _ h => h.1.1.enters hok

end SetCwd

end Triples

end VsFtp
