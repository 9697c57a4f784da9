import VsFtp.Listings
import VsFtp.Parts

/-!
# Which descriptor is used for what

The server keeps four descriptors in its record.  The log tells what each of them was obtained for:
a socket that is made while there is no client is the one clients connect to, a socket that is made
while there is one is for data connections of that client, and so on.  Whatever numbers the system
gives out, what is read, sent and accepted goes over the descriptor that was obtained for it.

## Main definitions

* `Channels` — what the descriptors were obtained for.
* `Event.route`, `Event.routed` — what a record does to that, and when it may come.
* `Apart`, `Attached`, `Streaming` — the record agrees with the channels: without a client, with
  one, and while data are sent.

## Main results

* `routes_commandHandle`, `routes_serverHandler` — the handlers and the turns keep to it.
* `channels_kept` — **every run does**, whatever ends it.
-/

namespace VsFtp

open CString Prog

attribute [local irreducible] serverSendReply helpText

variable {os : Os} {s : St} {argv : Argv} {α : Type}

/-! ### Channels -/

/-- What the descriptors were obtained for. -/
structure Channels where
  /-- The socket that was made last while there was no client. -/
  listener : Option Int
  /-- The connection of the client. -/
  control : Option Int
  /-- The socket that was made last for this client, until a connection is accepted on it. -/
  passive : Option Int
  /-- The data connection that was accepted last for the line that is handled. -/
  data : Option Int
  deriving DecidableEq

/-- Nothing is open. -/
def Channels.shut : Channels := ⟨none, none, none, none⟩

/-- The channels after a record. -/
def Event.route (e : Event) (v : Channels) : Channels :=
  match e with
  | .socket fd => if v.control = none then { v with listener := some fd }
      else { v with passive := some fd }
  | .accept .server _ fd => if fd < 0 then v
      else { v with control := some fd, passive := none, data := none }
  | .accept .transferClient _ fd => if fd < 0 then v
      else { v with passive := none, data := some fd }
  | .request _ _ => { v with data := none }
  | .disconnect => { v with control := none, passive := none, data := none }
  | .stopped => .shut
  | _ => v

/-- A record that uses a descriptor for what it was obtained for. -/
def Event.routed (e : Event) (v : Channels) : Prop :=
  match e with
  | .accept .server sock _ => v.control = none ∧ v.listener = some sock
  | .accept .transferClient sock _ => v.passive = some sock
  | .accept _ _ _ => False
  | .read fd _ _ => v.control = some fd
  | .write .client fd _ _ => v.control = some fd
  | .write .transferClient fd _ _ => v.data = some fd
  | .write _ _ _ _ => False
  | .request _ _ => v.control ≠ none
  | .dispatch _ _ => v.control ≠ none
  | _ => True

/-- The contract. -/
def routing : Contract Event Channels where
  next := Event.route
  guard := Event.routed
  init := .shut

/-- The triples of this contract.  Nothing is said of the state in which the process may end. -/
abbrev Routes (os : Os) (R : ServerData → Channels → Prop) (m : ServerM α)
    (Q : α → ServerData → Channels → Prop) : Prop := Tracks routing os (fun _ _ => True) R m Q

/-! ### The record and the channels -/

section Assertions

variable {d d' : ServerData} {v : Channels} {conn : Bool}

/-- The server listens, and there is a connection to its client. -/
structure Linked (conn : Bool) (d : ServerData) (v : Channels) : Prop where
  isServerSocketCreated : d.isServerSocketCreated = true
  isConnected : d.isConnected = conn
  listener : v.listener = some d.serverSock
  control : v.control = some d.clientSock

/-- Between two transfers, a transfer socket in the record was made for this client. -/
structure Attached (conn : Bool) (d : ServerData) (v : Channels) : Prop
    extends Linked conn d v where
  passive : d.transferSock ≠ -1 → v.passive = some d.transferSock

/-- While data are sent, the data connection in the record was accepted for this line. -/
structure Streaming (d : ServerData) (v : Channels) : Prop extends Linked true d v where
  data : v.data = some d.transferClientSock

/-- There is no client.  If the server listens, there is no transfer socket either. -/
structure Apart (d : ServerData) (v : Channels) : Prop where
  isConnected : d.isConnected = false
  control : v.control = none
  listening : d.isServerSocketCreated = true → v.listener = some d.serverSock ∧ d.transferSock = -1

/-- **The record agrees with the channels**, between two calls of the handler. -/
def Between (d : ServerData) (v : Channels) : Prop := Apart d v ∨ Attached true d v

/-- An assertion that speaks of the sockets only. -/
def OfSockets (R : ServerData → Channels → Prop) : Prop :=
  ∀ ⦃d d' v⦄, d'.sockets = d.sockets → R d v → R d' v

theorem Linked.of_sockets : OfSockets (Linked conn) := by
  intro d d' v h hR
  simp only [ServerData.sockets, Prod.mk.injEq] at h
  obtain ⟨⟨hserver, hclient, -, -⟩, hconn, hcreated⟩ := h
  exact ⟨hcreated.trans hR.isServerSocketCreated, hconn.trans hR.isConnected,
    hserver ▸ hR.listener, hclient ▸ hR.control⟩

theorem ServerData.transferSock_of_sockets (h : d'.sockets = d.sockets) :
    d'.transferSock = d.transferSock := by
  simp only [ServerData.sockets, Prod.mk.injEq] at h
  exact h.1.2.2.1

theorem Attached.of_sockets : OfSockets (Attached conn) := by
  intro d d' v h hR
  refine ⟨Linked.of_sockets h hR.toLinked, ?_⟩
  rw [ServerData.transferSock_of_sockets h]
  exact hR.passive

theorem Streaming.of_sockets : OfSockets Streaming := by
  intro d d' v h hR
  refine ⟨Linked.of_sockets h hR.toLinked, ?_⟩
  simp only [ServerData.sockets, Prod.mk.injEq] at h
  rw [h.1.2.2.2]
  exact hR.data

theorem Apart.of_sockets : OfSockets Apart := by
  intro d d' v h hR
  simp only [ServerData.sockets, Prod.mk.injEq] at h
  obtain ⟨⟨hserver, -, htransfer, -⟩, hconn, hcreated⟩ := h
  refine ⟨hconn.trans hR.isConnected, hR.control, ?_⟩
  rw [hserver, htransfer, hcreated]
  exact hR.listening

/-- The transfer sockets may be closed at any time. -/
theorem Attached.closeTransfer (h : Linked conn d v) :
    Attached conn (d.setSock .transfer (-1)) v :=
  ⟨⟨h.isServerSocketCreated, h.isConnected, h.listener, h.control⟩, fun hne => absurd rfl hne⟩

theorem Apart.closeTransfer (h : Apart d v) : Apart (d.setSock .transfer (-1)) v :=
  ⟨h.isConnected, h.control, fun hc => ⟨(h.listening hc).1, rfl⟩⟩

theorem Between.closeTransfer (h : Between d v) : Between (d.setSock .transfer (-1)) v :=
  h.imp Apart.closeTransfer fun h => Attached.closeTransfer h.toLinked

theorem Linked.setClient (h : Linked conn d v) (fd : Int) :
    Linked conn (d.setSock .transferClient fd) v :=
  ⟨h.isServerSocketCreated, h.isConnected, h.listener, h.control⟩

theorem Attached.setClient (h : Attached conn d v) (fd : Int) :
    Attached conn (d.setSock .transferClient fd) v := ⟨h.toLinked.setClient fd, h.passive⟩

theorem Between.setClient (h : Between d v) (fd : Int) :
    Between (d.setSock .transferClient fd) v :=
  h.imp (fun h => ⟨h.isConnected, h.control, h.listening⟩) fun h => h.setClient fd

end Assertions

/-! ### The parts -/

section Parts

variable {R Q : ServerData → Channels → Prop}

/-- Looking at something uses none of the descriptors. -/
theorem Plain.routes {m : ServerM α} (h : Plain α m) : Routes os R m (fun _ => R) := by
  cases h with
  | getData => exact fun _ hlog hR => ⟨hlog, hR⟩
  | stop => exact .stop fun _ _ _ => trivial
  | readdir => exact .emit_silent (by intros; trivial) (by intros; rfl)
  | closedir => exact .emit_silent (by intros; trivial) (by intros; rfl)
  | behind => exact .peek fun _ _ _ h => h
  | survives => exact .peek fun _ _ _ h => h
  | conversion => exact .peek fun _ _ _ h => h
  | errno => exact .peek fun _ _ _ h => h
  | _ => exact .call_silent (by intros; trivial) (by intros; rfl)

theorem covers_routes (hR : OfSockets R) : Covers fun _ m => Routes os R m fun _ => R where
  toModular := Modular.tracks
  plain h := h.routes
  hasKind _ _ _ := modular_filesystemHasKind Modular.tracks (.peek fun _ _ _ h => h)
    fun path => (Plain.stat path).routes
  store hf := .modifyData fun d _ h => hR (hf d) h

theorem routes_closeSocket {slot : Slot} (hR : ∀ d v, R d v → Q (d.setSock slot (-1)) v) :
    Routes os R (closeSocket slot) (fun _ => Q) := by
  have hstep : ∀ {retval : Int} {m : ServerM Int}, Routes os R m (fun _ => R) →
      Routes os R (onOk retval m) (fun _ => R) := fun hm => .onOk (fun _ => hm) fun _ _ _ h => h
  apply Tracks.bind (Plain.getData.routes (R := R))
  intro d
  apply Tracks.bind (hstep (.call_silent (by intros; trivial) (by intros; rfl)))
  intro retval
  apply Tracks.bind (hstep (.call_silent (by intros; trivial) (by intros; rfl)))
  intro retval
  exact .bind (.modifyData hR) fun _ => .pure fun _ _ h => h

/-- A socket is made for whatever there is at the moment. -/
theorem routes_createPassiveSocket {port : UInt16} {slot : Slot}
    (h : ∀ d v fd, R d v → Q (d.setSock slot fd) ((Event.socket fd).route v)) :
    Routes os R (createPassiveSocket port slot) (fun _ => Q) := by
  have hstep : ∀ {retval : Int} {m : ServerM Int}, Routes os Q m (fun _ => Q) →
      Routes os Q (onOk retval m) (fun _ => Q) := fun hm => .onOk (fun _ => hm) fun _ _ _ h => h
  apply Tracks.bind (Q := fun fd d v => Q (d.setSock slot fd) v)
  · apply Tracks.call
    intro log d v hR
    exact ⟨trivial, h d v _ hR⟩
  intro fd
  apply Tracks.bind (Q := fun _ => Q) (.modifyData fun _ _ h => h)
  intro _
  apply Tracks.bind (hstep (.call_silent (by intros; trivial) (by intros; rfl)))
  intro retval
  apply Tracks.bind (hstep (.call_silent (by intros; trivial) (by intros; rfl)))
  intro retval
  apply Tracks.bind (hstep (.call_silent (by intros; trivial) (by intros; rfl)))
  intro retval
  apply Tracks.bind (hstep (.call_silent (by intros; trivial) (by intros; rfl)))
  intro retval
  apply Tracks.ite
  · intro _
    exact .pure fun _ _ h => h
  intro _
  apply Tracks.bind (.call_silent (by intros; trivial) (by intros; rfl))
  intro _
  apply Tracks.bind (.call_silent (by intros; trivial) (by intros; rfl))
  intro _
  exact .pure fun _ _ h => h

/-- What is written goes over the descriptor in the record. -/
theorem routes_sendReplyOwnBuf {who : Slot} {buf : List Byte} {size len : ℕ}
    (hR : ∀ d v bytes w, R d v → (Event.write who (d.sock who) bytes w).routed v) :
    Routes os R (sendReplyOwnBuf who buf size len) (fun _ => R) := by
  apply Tracks.ite
  swap
  · intro _
    exact .pure fun _ _ h => h
  intro _
  apply Tracks.bind_getData
  intro a
  apply Tracks.bind (Q := fun _ d v => d = a ∧ R d v)
  · exact .bind (.peek fun _ _ _ h => h) fun _ => .pure fun _ _ h => h
  intro bytes
  apply Tracks.bind (Q := fun _ => R)
  · apply Tracks.call
    intro log d v h
    obtain ⟨rfl, hd⟩ := h
    exact ⟨hR d v bytes _ hd, hd⟩
  intro r
  exact .pure fun _ _ h => h

theorem routes_serverSendReply {text : List Byte}
    (hR : ∀ d v, R d v → v.control = some d.clientSock) :
    Routes os R (serverSendReply text) (fun _ => R) := by
  unfold serverSendReply
  apply Tracks.ite
  · intro _
    exact .pure fun _ _ h => h
  intro _
  apply Tracks.ite
  · intro _
    exact .pure fun _ _ h => h
  intro _
  apply Tracks.bind_getData
  intro a
  apply Tracks.bind (Q := fun _ => R)
  · apply Tracks.call
    intro log d v h
    obtain ⟨rfl, hd⟩ := h
    exact ⟨hR d v hd, hd⟩
  intro r
  exact .pure fun _ _ h => h

/-- Sending a file, by induction on the rounds. -/
theorem routes_sendfileLoop {fd : Int} {fuel count numSent : ℕ} {retval : Int} :
    Routes os Streaming (sendfileLoop fd fuel count numSent retval) (fun _ => Streaming) := by
  induction fuel generalizing count numSent retval with
  | zero =>
    unfold sendfileLoop
    exact .ite (fun _ => .stop fun _ _ _ => trivial) fun _ => .pure fun _ _ h => h
  | succ fuel ih =>
    unfold sendfileLoop
    apply Tracks.ite
    swap
    · intro _
      exact .pure fun _ _ h => h
    intro _
    apply Tracks.bind (.call_silent (by intros; trivial) (by intros; rfl))
    intro numRead
    cases numRead with
    | none => exact .pure fun _ _ h => h
    | some fileBuf =>
      cases fileBuf with
      | nil => exact .pure fun _ _ h => h
      | cons b fileBuf =>
        apply Tracks.bind_getData
        intro a
        apply Tracks.bind (Q := fun _ => Streaming)
        · apply Tracks.bind (Q := fun _ => Streaming)
          · apply Tracks.call
            intro log d v h
            obtain ⟨rfl, hd⟩ := h
            exact ⟨hd.data, hd⟩
          intro lsend
          exact .ite (fun _ => .pure fun _ _ h => h) fun _ => .pure fun _ _ h => h
        rintro ⟨retval, numSent⟩
        apply Tracks.ite
        · intro _
          exact .pure fun _ _ h => h
        intro _
        apply Tracks.ite
        · intro _
          exact .pure fun _ _ h => h
        · intro _
          exact ih

theorem transmits_routes : Transmits fun _ m => Routes os Streaming m fun _ => Streaming where
  toCovers := covers_routes Streaming.of_sockets
  line _ _ _ := routes_sendReplyOwnBuf fun _ _ _ _ h => h.data
  file _ _ _ _ _ := routes_sendfileLoop

theorem handles_routes {conn : Bool} :
    Handles fun _ m => Routes os (Attached conn) m fun _ => Attached conn where
  toCovers := covers_routes Attached.of_sockets
  reply _ := routes_serverSendReply fun _ _ h => h.control
  help _ _ _ := routes_sendReplyOwnBuf fun _ _ _ _ h => h.control
  closeConnection := routes_closeSocket fun _ _ h => h.setClient (-1)
  closeSocket := routes_closeSocket fun _ _ h => Attached.closeTransfer h.toLinked
  create port := by
    apply routes_createPassiveSocket
    intro d v fd h
    have hcontrol : ¬ v.control = none := by rw [h.control]; exact Option.some_ne_none _
    rw [Event.route, if_neg hcontrol]
    exact ⟨⟨h.isServerSocketCreated, h.isConnected, h.listener, h.control⟩, fun _ => rfl⟩

end Parts

/-! ### The end of a session -/

theorem routes_serverClientDisconnect :
    Routes os (Attached true) serverClientDisconnect (fun _ => Between) := by
  apply Tracks.bind (Q := fun _ d v => v.control = none ∧ v.listener = some d.serverSock)
  · apply Tracks.emit
    intro d v h
    exact ⟨trivial, rfl, h.listener⟩
  intro _
  apply Tracks.bind (Q := fun _ d v => v.control = none ∧ v.listener = some d.serverSock)
  · apply routes_closeSocket
    intro d v h
    exact h
  intro _
  apply Tracks.bind (Q := fun _ d v => (v.control = none ∧ v.listener = some d.serverSock) ∧
    d.transferSock = -1)
  · apply routes_closeSocket
    intro d v h
    exact ⟨h, rfl⟩
  intro _
  apply Tracks.bind (Q := fun _ d v => (v.control = none ∧ v.listener = some d.serverSock) ∧
    d.transferSock = -1)
  · apply routes_closeSocket
    intro d v h
    exact h
  intro _
  apply Tracks.bind (Q := fun _ => Between)
  · apply Tracks.modifyData
    intro d v h
    exact Or.inl ⟨rfl, h.1.1, fun _ => ⟨h.1.2, h.2⟩⟩
  intro _
  exact .pure fun _ _ h => h

theorem routes_serverStop {R : ServerData → Channels → Prop} :
    Routes os R serverStop (fun _ => Between) := by
  apply Tracks.bind (Q := fun _ _ v => v.control = none)
  · apply Tracks.emit
    intro d v _
    exact ⟨trivial, rfl⟩
  intro _
  apply Tracks.bind (Q := fun _ _ v => v.control = none)
  · apply routes_closeSocket
    intro d v h
    exact h
  intro _
  apply Tracks.bind (Q := fun _ _ v => v.control = none)
  · apply routes_closeSocket
    intro d v h
    exact h
  intro _
  apply Tracks.bind (Q := fun _ _ v => v.control = none)
  · apply routes_closeSocket
    intro d v h
    exact h
  intro _
  apply Tracks.bind (Plain.getData.routes)
  intro d
  apply Tracks.bind (Q := fun _ _ v => v.control = none)
  · apply Tracks.ite
    swap
    · intro _
      exact .pure fun _ _ h => h
    intro _
    apply Tracks.bind (.call_silent (by intros; trivial) (by intros; rfl))
    intro _
    apply Tracks.bind (.call_silent (by intros; trivial) (by intros; rfl))
    intro _
    exact .modifyData fun _ _ h => h
  intro _
  apply Tracks.bind (Q := fun _ => Between)
  · apply Tracks.modifyData
    intro d v h
    exact Or.inl ⟨rfl, h, fun h0 => absurd h0 Bool.false_ne_true⟩
  intro _
  exact .pure fun _ _ h => h

/-! ### Handlers -/

section Handlers

variable {args : List Byte} {len : ℕ}

theorem routes_commandHandlerUser :
    Routes os (Attached true) (commandHandlerUser args len) (fun _ => Between) := by
  apply Tracks.ite
  · intro _
    exact (handles_routes.reply _).weaken fun _ _ _ h => Or.inr h
  intro _
  apply Tracks.bind (handles_routes.reply _)
  intro retval
  apply Tracks.bind routes_serverClientDisconnect
  intro _
  exact .pure fun _ _ h => h

/-- Accepting the data connection of a transfer. -/
theorem routes_serverAccept : Routes os (Attached true) serverAcceptTransferClientConnection
    (fun r d v => Linked true d v ∧ (r = 0 → v.data = some d.transferClientSock)) := by
  apply Tracks.bind_getData
  intro a
  apply Tracks.ite
  swap
  · intro _
    exact .pure fun _ _ h => ⟨h.2.toLinked, fun h0 => absurd h0 (by decide)⟩
  intro hsock
  apply Tracks.bind (Q := fun lsock d v => Linked true d v ∧ (0 ≤ lsock → v.data = some lsock))
  · apply Tracks.call
    intro log d v h
    obtain ⟨rfl, hd⟩ := h
    refine ⟨hd.passive hsock, ?_⟩
    simp only [routing, Event.route]
    split_ifs with hneg
    · exact ⟨hd.toLinked, fun h0 => absurd hneg (by omega)⟩
    · exact ⟨⟨hd.isServerSocketCreated, hd.isConnected, hd.listener, hd.control⟩, fun _ => rfl⟩
  intro lsock
  apply Tracks.ite
  swap
  · intro _
    exact .pure fun _ _ h => ⟨h.1, fun h0 => absurd h0 (by decide)⟩
  intro hok
  apply Tracks.bind (Q := fun _ d v => Linked true d v ∧ v.data = some d.transferClientSock)
  · apply Tracks.modifyData
    intro d v h
    exact ⟨h.1.setClient lsock, h.2 hok⟩
  intro _
  exact .pure fun _ _ h => ⟨h.1, fun _ => h.2⟩

/-- **Transfers.**  The data connection is accepted for the line, and closed before its reply. -/
theorem routes_transferCommand {r0 : Int} {announce transfer : ServerM Int}
    {reply : Int → ServerM Int} (ha : Routes os Streaming announce fun _ => Streaming)
    (ht : Routes os Streaming transfer fun _ => Streaming)
    (hr : ∀ retval, Routes os (Attached true) (reply retval) fun _ => Attached true) :
    Routes os (Attached true) (transferCommand r0 announce transfer reply)
      (fun _ => Attached true) := by
  have hstep : ∀ {retval : Int} {m : ServerM Int}, Routes os Streaming m (fun _ => Streaming) →
      Routes os (fun d v => Linked true d v ∧ (retval = 0 → v.data = some d.transferClientSock))
        (onOk retval m)
        (fun r d v => Linked true d v ∧ (r = 0 → v.data = some d.transferClientSock)) := by
    intro retval m hm
    apply Tracks.onOk
    · intro hok
      apply hm.mono
      · intro d v h
        exact ⟨h.1, h.2 hok⟩
      · intro r d v h
        exact ⟨h.toLinked, fun _ => h.data⟩
    · intro hno d v h
      exact ⟨h.1, fun h0 => absurd h0 hno⟩
  apply Tracks.bind (Q := fun r d v =>
      Linked true d v ∧ (r = 0 → v.data = some d.transferClientSock))
  · apply Tracks.onOk
    · intro _
      exact routes_serverAccept
    · intro hno d v h
      exact ⟨h.toLinked, fun h0 => absurd h0 hno⟩
  intro retval
  apply Tracks.bind (hstep ha)
  intro retval
  apply Tracks.bind (hstep ht)
  intro retval
  apply Tracks.bind (Q := fun _ => Linked true)
  · apply routes_closeSocket
    intro d v h
    exact h.1.setClient (-1)
  intro _
  apply Tracks.bind (Q := fun _ => Attached true)
  · apply routes_closeSocket
    intro d v h
    exact Attached.closeTransfer h
  intro _
  exact hr retval

theorem routes_commandHandlerNlst :
    Routes os (Attached true) (commandHandlerNlst args len) (fun _ => Attached true) := by
  have hp := @handles_routes os true
  apply Tracks.bind hp.nlstPath
  intro out
  apply Tracks.bind hp.readString
  intro lpath
  apply routes_transferCommand
  · exact routes_serverSendReply fun _ _ h => h.control
  · exact transmits_routes.nlstLoop
  · intro retval
    exact hp.ite (hp.reply _) (hp.reply _)

theorem routes_commandHandlerRetr :
    Routes os (Attached true) (commandHandlerRetr args len) (fun _ => Attached true) := by
  have hp := @handles_routes os true
  have ht := @transmits_routes os
  apply Tracks.bind hp.filePath
  rintro ⟨out, isFileError⟩
  apply routes_transferCommand
  · apply Tracks.bind
    · apply Tracks.bind (ht.plain .getData)
      intro d
      exact ht.pure _
    intro isBinary
    apply Tracks.bind ht.readString
    intro path
    exact routes_serverSendReply fun _ _ h => h.control
  · exact ht.serverSendfileTransfer
  · intro retval
    exact hp.ite (hp.reply _) (hp.reply _)

/-- **The handlers.** -/
theorem routes_commandHandle {c : Command} :
    Routes os (Attached true) (commandHandle c args len) (fun _ => Between) := by
  have hp := @handles_routes os true
  have hbetween : ∀ {m : ServerM Int}, Routes os (Attached true) m (fun _ => Attached true) →
      Routes os (Attached true) m (fun _ => Between) := fun hm => hm.weaken fun _ _ _ h => Or.inr h
  cases c with
  | user => exact routes_commandHandlerUser
  | syst => exact hbetween (hp.reply _)
  | pasv => exact hbetween (hp.commandHandlerPasv args len)
  | nlst => exact hbetween routes_commandHandlerNlst
  | pwd => exact hbetween (hp.commandHandlerPwd args len)
  | cwd => exact hbetween (hp.commandHandlerCwd args len)
  | retr => exact hbetween routes_commandHandlerRetr
  | size => exact hbetween (hp.commandHandlerSize args len)
  | type => exact hbetween (hp.commandHandlerType args len)
  | help => exact hbetween (hp.commandHandlerHelp args len)
  | quit => exact hbetween (hp.reply _)

end Handlers

/-! ### A line -/

/-- A line comes from the client that is connected; no data connection is accepted for it yet. -/
theorem routes_commandsParse {buffer : List Byte} {len : ℕ} :
    Routes os (Attached true) (commandsParse buffer len) (fun _ => Between) := by
  have hlinked : ∀ {d v}, Attached true d v → v.control ≠ none := by
    intro d v h
    rw [h.control]
    exact Option.some_ne_none _
  have hcall : ∀ {c : Command} {call : Option Args} {args : List Byte} {n : ℕ}, Routes os
      (Attached true) (emit (.dispatch c call) >>= fun _ => commandHandle c args n)
      (fun _ => Between) := by
    intro c call args n
    apply Tracks.bind (Q := fun _ => Attached true)
    · apply Tracks.emit
      intro d v h
      exact ⟨hlinked h, h⟩
    intro _
    exact routes_commandHandle
  apply Tracks.bind (Q := fun _ => Attached true)
  · apply Tracks.emit
    intro d v h
    exact ⟨hlinked h, ⟨⟨h.isServerSocketCreated, h.isConnected, h.listener, h.control⟩, h.passive⟩⟩
  intro _
  cases commandFind buffer with
  | none =>
    apply Tracks.bind (handles_routes.reply _)
    intro _
    exact .pure fun _ _ h => Or.inr h
  | some found => exact .ite (fun _ => hcall) fun _ => hcall

section

variable {R : ServerData → Channels → Prop}

theorem routes_storeRequest {buffer : List Byte} {i : ℕ} {b : Byte} :
    Routes os R (storeRequest buffer i b) (fun _ => R) := by
  apply Tracks.bind (.emit_silent (by intros; trivial) (by intros; rfl))
  intro _
  apply Tracks.ite
  · intro _
    exact .pure fun _ _ h => h
  intro _
  apply Tracks.bind (Q := fun _ => R)
  · apply Tracks.bind (Plain.routes .survives)
    intro survives
    exact .ite (fun _ => .pure fun _ _ h => h) fun _ => Plain.routes .stop
  intro _
  exact .pure fun _ _ h => h

theorem routes_endsLine {buffer : List Byte} {n : ℕ} :
    Routes os R (endsLine buffer n) (fun _ => R) := by
  apply Tracks.bind (.emit_silent (by intros; trivial) (by intros; rfl))
  intro _
  apply Tracks.bind (.emit_silent (by intros; trivial) (by intros; rfl))
  intro _
  exact .pure fun _ _ h => h

end

theorem routes_handleLine {buffer : List Byte} {n : ℕ} :
    Routes os (Attached true) (handleLine buffer n) (fun _ => Between) := by
  apply Tracks.bind routes_storeRequest
  intro buffer
  apply Tracks.bind routes_commandsParse
  intro retval
  apply Tracks.bind (.emit_silent (by intros; trivial) (by intros; rfl))
  intro _
  apply Tracks.ite
  swap
  · intro _
    exact .pure fun _ _ h => h
  intro _
  apply Tracks.bind (Q := fun _ => Between)
  · apply routes_closeSocket
    intro d v h
    exact h.setClient (-1)
  intro _
  apply Tracks.bind (Q := fun _ => Between)
  · apply routes_closeSocket
    intro d v h
    exact h.closeTransfer
  intro _
  exact .pure fun _ _ h => h

/-- What is read is read from the client. -/
theorem routes_handleConnection :
    Routes os (Attached true) handleConnection (fun _ => Between) := by
  apply Tracks.bind_getData
  intro a
  apply Tracks.bind (Q := fun _ => Attached true)
  · apply Tracks.bind (Q := fun _ => Attached true)
    · apply Tracks.call
      intro log d v h
      obtain ⟨rfl, hd⟩ := h
      exact ⟨hd.control, hd⟩
    intro bytes
    cases bytes with
    | none => exact .pure fun _ _ h => h
    | some bytes => exact .pure fun _ _ h => h
  rintro ⟨retval, bytes⟩
  apply Tracks.bind routes_storeRequest
  intro buffer
  apply Tracks.bind (Q := fun _ => Attached true)
  · exact .ite (fun _ => routes_endsLine) fun _ => .pure fun _ _ h => h
  intro isLine
  apply Tracks.ite
  · intro _
    exact routes_handleLine
  intro _
  apply Tracks.ite
  · intro _
    apply Tracks.bind routes_serverClientDisconnect
    intro _
    exact .pure fun _ _ h => h
  intro _
  apply Tracks.bind (Plain.routes .errno)
  intro errno
  apply Tracks.ite
  · intro _
    exact .pure fun _ _ h => Or.inr h
  intro _
  apply Tracks.bind routes_serverStop
  intro _
  exact .pure fun _ _ h => h

/-! ### Starting and waiting -/

/-- The socket of the server is made while there is no client. -/
theorem routes_serverStart : Routes os
    (fun d v => Apart d v ∧ d.isServerSocketCreated = false) serverStart
    (fun r d v => r = 0 → Between d v) := by
  have hsockets : OfSockets fun d v =>
      (Apart d v ∧ d.isServerSocketCreated = false) ∧ d.transferSock = -1 := by
    intro d d' v h hR
    refine ⟨⟨Apart.of_sockets h hR.1.1, ?_⟩, (ServerData.transferSock_of_sockets h).trans hR.2⟩
    simp only [ServerData.sockets, Prod.mk.injEq] at h
    exact h.2.2.trans hR.1.2
  have hp := @covers_routes os _ hsockets
  apply Tracks.bind (Q := fun _ d v =>
    (Apart d v ∧ d.isServerSocketCreated = false) ∧ d.transferSock = -1)
  · apply Tracks.modifyData
    intro d v h
    have hcreated : ¬ d.isServerSocketCreated = true := by rw [h.2]; exact Bool.false_ne_true
    exact ⟨⟨⟨h.1.isConnected, h.1.control, fun h0 => absurd h0 hcreated⟩, h.2⟩, rfl⟩
  intro _
  apply Tracks.bind (hp.plain .getData)
  intro d
  apply Tracks.bind hp.serverSetCwd
  intro retval
  apply Tracks.bind (Q := fun r d v => r = 0 → (Apart d v ∧ d.transferSock = -1) ∧
    v.listener = some d.serverSock)
  · apply Tracks.onOk
    swap
    · intro hno d v _ h0
      exact absurd h0 hno
    intro _
    apply Tracks.bind (hp.store (by intros; rfl))
    intro _
    apply Tracks.bind (hp.plain .getData)
    intro d
    apply Tracks.weaken (Q := fun _ d v => (Apart d v ∧ d.transferSock = -1) ∧
      v.listener = some d.serverSock)
    · apply routes_createPassiveSocket
      intro d v fd h
      have hcreated : ¬ d.isServerSocketCreated = true := by rw [h.1.2]; exact Bool.false_ne_true
      rw [Event.route, if_pos h.1.1.control]
      exact ⟨⟨⟨h.1.1.isConnected, h.1.1.control, fun h0 => absurd h0 hcreated⟩, h.2⟩, rfl⟩
    · intro _ d v h _
      exact h
  intro retval
  apply Tracks.onOk
  swap
  · intro hno d v _ h0
    exact absurd h0 hno
  intro hok
  apply Tracks.bind (Q := fun _ => Between)
  · apply Tracks.modifyData
    intro d v h
    obtain ⟨⟨happart, hsock⟩, hlistener⟩ := h hok
    exact Or.inl ⟨happart.isConnected, happart.control, fun _ => ⟨hlistener, hsock⟩⟩
  intro _
  exact .pure fun _ _ h _ => h

/-- A client is accepted on the socket of the server. -/
theorem routes_waitForIncomingConnection : Routes os
    (fun d v => Apart d v ∧ d.isServerSocketCreated = true) waitForIncomingConnection
    (fun r d v => r = 0 → Between d v) := by
  apply Tracks.bind_getData
  intro a
  -- where a client is accepted it is not connected yet
  apply Tracks.bind (Q := fun sock d v => if 0 ≤ sock then
    Attached false (d.setSock .client sock) v else Apart d v)
  · apply Tracks.call
    intro log d v h
    obtain ⟨rfl, hd, hcreated⟩ := h
    obtain ⟨hlistener, hsock⟩ := hd.listening hcreated
    refine ⟨⟨hd.control, hlistener⟩, ?_⟩
    simp only [routing, Event.route]
    split_ifs with hpos hneg
    · exact absurd hneg (by omega)
    · exact ⟨⟨hcreated, hd.isConnected, hlistener, rfl⟩, fun hne => absurd hsock hne⟩
    · exact hd
    · exact absurd hpos (by omega)
  intro sock
  apply Tracks.bind (Q := fun _ d v => if 0 ≤ sock then Attached false d v else Apart d v)
  · apply Tracks.modifyData
    intro d v h
    split_ifs with hpos
    · rw [if_pos hpos] at h
      exact h
    · rw [if_neg hpos] at h
      exact ⟨h.isConnected, h.control, h.listening⟩
  intro _
  apply Tracks.ite
  · intro hpos
    simp only [if_pos hpos]
    have hp := @handles_routes os false
    apply Tracks.bind hp.serverSetCwd
    intro retval
    apply Tracks.bind (hp.onOk (hp.reply _))
    intro retval
    apply Tracks.onOk
    swap
    · intro hno d v _ h0
      exact absurd h0 hno
    intro _
    apply Tracks.bind (Q := fun _ => Between)
    · apply Tracks.modifyData
      intro d v h
      exact Or.inr ⟨⟨h.isServerSocketCreated, rfl, h.listener, h.control⟩, h.passive⟩
    intro _
    exact .pure fun _ _ h _ => h
  · intro hneg
    simp only [if_neg hneg]
    apply Tracks.bind (Plain.routes .errno)
    intro errno
    apply Tracks.ite
    · intro _
      exact .pure fun _ _ h _ => Or.inl h
    intro _
    apply Tracks.bind routes_serverStop
    intro _
    exact .pure fun _ _ h _ => h

/-- **A turn.** -/
theorem routes_serverHandler :
    Routes os Between serverHandler (fun r d v => r = 0 → Between d v) := by
  apply Tracks.bind_getData
  intro a
  apply Tracks.ite
  · intro hcreated
    apply routes_serverStart.strengthen
    rintro d v ⟨rfl, h⟩
    rcases h with h | h
    · exact ⟨h, hcreated⟩
    · exact absurd (h.isServerSocketCreated.symm.trans hcreated) (by decide)
  intro hcreated
  have hcreated : a.isServerSocketCreated = true := by simpa using hcreated
  apply Tracks.ite
  · intro hconn
    apply routes_waitForIncomingConnection.strengthen
    rintro d v ⟨rfl, h⟩
    rcases h with h | h
    · exact ⟨h, hcreated⟩
    · exact absurd (h.isConnected.symm.trans hconn) (by decide)
  · intro hconn
    apply routes_handleConnection.mono
    · rintro d v ⟨rfl, h⟩
      rcases h with h | h
      · exact absurd h.isConnected hconn
      · exact h
    · intro _ d v h _
      exact h

/-! ### Runs -/

/-- The log keeps to the contract, and the record agrees with the channels. -/
structure Routed (s : St) : Prop where
  kept : routing.Kept s.log
  between : Between s.data (routing.phase s.log)

theorem started_routed (h : Started os argv s) : Routed s := by
  have happart : OfSockets Apart := Apart.of_sockets
  have hzero : Apart St.zero.data (routing.phase St.zero.log) :=
    ⟨rfl, rfl, fun h0 => absurd h0 Bool.false_ne_true⟩
  have hstart := (@covers_routes os Apart happart).mainStart argv St.zero Contract.kept_nil hzero
  obtain ⟨hlog, hs⟩ := of_wp_run hstart h
  exact ⟨hlog, Or.inl hs⟩

theorem Reachable.routed (h : Reachable os argv s) : Routed s := by
  refine Reach.invariant h ?_ ?_
  · intro s h0
    exact started_routed h0
  · intro s s' _ hs ht
    obtain ⟨hlog, hbetween⟩ := of_wp_run (routes_serverHandler s hs.kept hs.between) ht
    exact ⟨hlog, hbetween rfl⟩

/-- **Every descriptor is used for what it was obtained for**, in every run and whatever ends it: a
client is accepted only on the socket that was made last while there was none; lines are read from,
and replies sent to, the connection that was accepted for this client; a data connection is accepted
only on a socket that was made last and for this client, and on no socket twice; and data are sent
only to the connection that was accepted last for the line that is handled. -/
theorem channels_kept (h : Reachable os argv s) : routing.Kept (serverHandler os s).2.log := by
  have hs := Reachable.routed h
  have hturn := @routes_serverHandler os s hs.kept hs.between
  have hlog : wp os serverHandler (fun _ s' => routing.Kept s'.log)
      (fun s' => routing.Kept s'.log) s := wp_mono hturn (fun _ _ h => h.1) fun _ h => h.1
  exact wp_state.mp hlog

/-- A listing is sent over the connection that is accepted for it. -/
theorem channels_kept_nlst : routing.Kept listingLog :=
  channels_kept (Host.reachable_run (by decide +kernel))

end VsFtp
