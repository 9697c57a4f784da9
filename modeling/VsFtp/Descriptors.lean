import VsFtp.Shutdown
import VsFtp.Turns

/-!
# The descriptors the server uses

Which descriptors the server passes to the system for the fields of its record.  The
field of the transfer client is zero, not -1, until that socket is closed for the
first time, so that what is closed then is descriptor 0.

## Main definitions

* `UsesHeld` — every descriptor that was passed to a socket call was held.
* `LeavesTransfers` — the turn does not close the transfer sockets.
* `Unspoilt` — the server has used only sockets it held, and has left descriptor 0 alone.

## Main results

* `Unspoilt.turn` — a turn that leaves the transfer sockets alone keeps it so.
* `only_held_used` — **as long as no turn of `main` closes the transfer sockets, only sockets are
  used that are held, until `main` stops the server.**
* `pasv_closes_stdin` — the first `PASV` closes the standard input.
-/

namespace VsFtp

open CString Prog

variable {os : Os} {s s' : St} {quit : Log → Bool} {turns : ℕ} {args : List (List Byte)}

/-- The descriptor that is passed to `accept`, `shutdown`, `close`, `read` or `write`
for a field of the record. -/
def Event.used : Event → List Int
  | .accept _ fd _ => [fd]
  | .shutdown _ fd _ => [fd]
  | .close fd _ => [fd]
  | .read fd _ _ => [fd]
  | .write _ fd _ _ => [fd]
  | _ => []

/-- A reply that could not be sent. -/
def Event.isRefused : Event → Bool
  | .write .client _ _ r => r = -1
  | _ => false

/-- Every descriptor that was passed to one of these calls, if it is one, was held. -/
def UsesHeld : Log → Prop
  | [] => True
  | e :: log => (∀ fd ∈ e.used, 0 ≤ fd → fd ∈ held log) ∧ UsesHeld log

instance UsesHeld.decidable : (log : Log) → Decidable (UsesHeld log)
  | [] => isTrue trivial
  | e :: log =>
      have := UsesHeld.decidable log
      inferInstanceAs (Decidable ((∀ fd ∈ e.used, 0 ≤ fd → fd ∈ held log) ∧ UsesHeld log))

/-- The handlers that leave the transfer sockets alone. -/
def Command.sparesTransfers : Command → List Byte → ℕ → Prop
  | .user, args, len => Allowed args len
  | .pasv, _, _ => False
  | .nlst, _, _ => False
  | .retr, _, _ => False
  | _, _, _ => True

instance Command.decidableSparesTransfers :
    (c : Command) → (args : List Byte) → (len : ℕ) → Decidable (c.sparesTransfers args len)
  | .user, args, len => inferInstanceAs (Decidable (Allowed args len))
  | .pasv, _, _ | .nlst, _, _ | .retr, _, _ => isFalse id
  | .syst, _, _ | .pwd, _, _ | .cwd, _, _ | .size, _, _ | .type, _, _ | .help, _, _ | .quit, _, _ =>
      isTrue trivial

/-- The turn does not get to `VSFTPServerCloseTransferClientSocket`, if its reply is
sent: the server starts, or waits for a client, or handles one of the commands that
leave the transfer sockets alone, or has read something that is not a line while
`errno` is `EAGAIN`. -/
def LeavesTransfers (os : Os) (s : St) : Prop :=
  s.data.isServerSocketCreated = true →
    if s.data.isConnected = true then
      (∃ c args len s1, Called os s c args len s1 ∧ c.sparesTransfers args len) ∨
        received os s ≠ some [] ∧ ¬ IsLine ((received os s).getD []) ∧
          os.errno (examinedLog s.data.clientSock (received os s) s.log) = eagain
    else 0 ≤ os.accept s.log s.data.serverSock ∨ os.errno (acceptedLog os s) = eagain

/-- A turn that calls such a handler leaves the transfer sockets alone. -/
theorem LeavesTransfers.of_calling
    (h : (calling os s).any fun x => decide (x.1.sparesTransfers x.2.1 x.2.2.1)) :
    LeavesTransfers os s := by
  obtain ⟨⟨c, args, len, s1⟩, hx, hspare⟩ := (Option.any_eq_true _ _).mp h
  have hcall : Called os s c args len s1 := Called.of_calling hx
  intro _
  have hcon : s.data.isConnected = true := by
    cases hcall with
    | mk _ hcon => exact hcon
  rw [if_pos hcon]
  exact Or.inl ⟨_, _, _, _, hcall, of_decide_eq_true hspare⟩

/-- The server has only used sockets that it held.  Descriptor 0, which was open before the first
call, still is, and is none of them. -/
structure Unspoilt (os : Os) (log : Log) : Prop where
  used : UsesHeld log
  inherited : 0 ∈ openFds os.inherited log
  foreign : 0 ∉ held log

theorem UsesHeld.of_append {log : Log} {N : List Event} (h : UsesHeld (N ++ log)) :
    UsesHeld log := by
  induction N with
  | nil => exact h
  | cons e N ih => exact ih h.2

namespace Unspoilt

variable {log : Log} {N : List Event}

theorem nil : Unspoilt os [] := ⟨trivial, os.zero_inherited, List.not_mem_nil⟩

theorem of_neutral (h : Unspoilt os log) (hN : Neutral N)
    (hu : ∀ e ∈ N, ∀ fd ∈ e.used, 0 ≤ fd → fd ∈ held log) : Unspoilt os (N ++ log) := by
  refine ⟨?_, ?_, ?_⟩
  · induction N with
    | nil => exact h.used
    | cons e N ih =>
      have hN' : Neutral N := fun a ha => hN a (by simp [ha])
      refine ⟨fun fd hfd h0 => ?_, ih hN' fun a ha => hu a (by simp [ha])⟩
      have hheld : fd ∈ held (N ++ log) := by
        rw [held_append_of_neutral hN']
        exact hu e (by simp) fd hfd h0
      exact hheld
  · rw [openFds_append_of_neutral hN]
    exact h.inherited
  · rw [held_append_of_neutral hN]
    exact h.foreign

theorem of_lookups (h : Unspoilt os log) (hL : Lookups N) : Unspoilt os (N ++ log) := by
  refine h.of_neutral hL.neutral fun e he fd hfd => ?_
  have hl := hL e he
  cases e <;> first | exact absurd hfd List.not_mem_nil | exact absurd hl Bool.false_ne_true

/-- A record that uses, opens and closes nothing. -/
theorem mark {e : Event} (h : Unspoilt os log) (he : e.isNeutral) (hu : e.used = []) :
    Unspoilt os (e :: log) := by
  refine h.of_neutral (N := [e]) (.cons .nil he) fun a ha fd hfd => ?_
  obtain rfl := List.mem_singleton.mp ha
  rw [hu] at hfd
  exact absurd hfd List.not_mem_nil

theorem write {who : Slot} {fd : Int} {bytes : List Byte} {w : Int} (h : Unspoilt os log)
    (hfd : fd ∈ held log) : Unspoilt os (.write who fd bytes w :: log) := by
  refine h.of_neutral (N := [_]) Neutral.nil.write fun e he fd' hfd' _ => ?_
  obtain rfl := List.mem_singleton.mp he
  obtain rfl := List.mem_singleton.mp hfd'
  exact hfd

/-- A reply that is sent behind some lookups. -/
theorem replied {fd : Int} {bytes : List Byte} {w : Int} (h : Unspoilt os log) (hN : Lookups N)
    (hfd : fd ∈ held log) : Unspoilt os (.write .client fd bytes w :: (N ++ log)) := by
  refine (h.of_lookups hN).write ?_
  rw [held_append_of_neutral hN.neutral]
  exact hfd

theorem answered {r : Int} (h : Unspoilt os s.log) (hc : s.data.clientSock ∈ held s.log)
    (ha : Answered s r s') : Unspoilt os s'.log := by
  cases ha with
  | mk hL => exact h.replied hL hc

/-- A handler that leaves the transfer sockets alone returns the status of its reply. -/
theorem outcome {args : List Byte} {len : ℕ} {c : Command} {r : Int} (h : Unspoilt os s.log)
    (hc : s.data.clientSock ∈ held s.log) (hk : c.sparesTransfers args len)
    (ho : Outcome os s args len c r s') : Unspoilt os s'.log ∧
      s'.data.transferClientSock = s.data.transferClientSock ∧
      ∃ e ∈ s'.log, e.isRefused = false → r = 0 := by
  have hsent : ∀ {fd : Int} {bytes : List Byte} {w : Int} {log : Log},
      ∃ e ∈ Event.write .client fd bytes w :: log, e.isRefused = false → status w = 0 :=
    ⟨_, List.mem_cons_self, fun h => if_neg (by simpa [Event.isRefused] using h)⟩
  have hanswered : ∀ {r : Int} {s' : St}, Answered s r s' → Unspoilt os s'.log ∧
      s'.data.transferClientSock = s.data.transferClientSock ∧
      ∃ e ∈ s'.log, e.isRefused = false → r = 0 := by
    intro r s' h'
    refine ⟨h.answered hc h', ?_⟩
    cases h' with
    | mk => exact ⟨rfl, hsent⟩
  cases ho with
  | answered _ h' => exact hanswered h'
  | rejected hn => exact absurd hk hn
  | moved h' =>
    cases h' with
    | stayed hL => exact ⟨h.replied hL hc, rfl, hsent⟩
    | @moved p r d' L text w hp ha hd ht =>
      have hL : Lookups (L ++ [.realpath p (some r)]) := hd.lookups.append (.cons rfl .nil)
      obtain ⟨cwd, cwdLen, rfl⟩ := hd.exists_eq
      refine ⟨?_, rfl, hsent⟩
      rw [List.append_cons]
      exact h.replied hL hc
  | sized h' => exact hanswered h'.answered
  | passive => exact hk.elim
  | listed => exact hk.elim
  | sent => exact hk.elim

/-- A new socket is not descriptor 0, which is open. -/
theorem socket (h : Unspoilt os log) {fd : Int} (hfd : fd = os.socket log) :
    Unspoilt os (.socket fd :: log) := by
  have hne : (0 : Int) ≠ fd := by
    rw [hfd]
    exact socket_ne h.inherited le_rfl
  refine ⟨⟨fun _ hfd => absurd hfd List.not_mem_nil, h.used⟩, ?_, ?_⟩
  · simp [mem_openFds_cons, Event.released, h.inherited]
  · by_cases hneg : fd < 0 <;> simp [mem_held_cons, Event.obtained, h.foreign, hneg, hne]

theorem created {port : UInt16} {r fd : Int} (h : Unspoilt os log) (hfd : fd = os.socket log)
    (hC : Creates port r fd N) : Unspoilt os (N ++ log) := by
  have hsocket := h.socket hfd
  have hne : (0 : Int) ≠ fd := by
    rw [hfd]
    exact socket_ne h.inherited le_rfl
  have hgot : 0 ≤ fd → fd ∈ held (.socket fd :: log) := fun h0 => by
    simp [mem_held_cons, Event.obtained, h0]
  cases hC with
  | @failed _ _ r1 r2 N _ hN =>
    -- what is closed again is the new socket
    have hneutral : Neutral N := fun e he => Event.isNeutral_of_isSetup (hN e he)
    have hsetup : Unspoilt os (N ++ .socket fd :: log) := by
      refine hsocket.of_neutral hneutral fun e he x hx => ?_
      have hs := hN e he
      cases e <;> first | exact absurd hx List.not_mem_nil | exact absurd hs Bool.false_ne_true
    have hheld : 0 ≤ fd → fd ∈ held (N ++ .socket fd :: log) := fun h0 =>
      mem_held_of_neutral hneutral (hgot h0)
    simp only [List.cons_append, List.append_assoc, List.nil_append]
    refine ⟨⟨fun x hx h0 => ?_, fun x hx h0 => ?_, hsetup.used⟩, ?_, ?_⟩
    · obtain rfl := List.mem_singleton.mp hx
      exact mem_held_cons.mpr (Or.inr ⟨hheld h0, List.not_mem_nil⟩)
    · obtain rfl := List.mem_singleton.mp hx
      exact hheld h0
    · simp [mem_openFds_cons, Event.released, hsetup.inherited, hne]
    · simp [mem_held_cons, Event.obtained, hsetup.foreign]
  | created =>
    have hnone : ∀ e ∈ [Event.listen fd 0, .bind fd port 0, .setsockopt fd 0, .fcntl fd 0],
        ∀ x ∈ e.used, 0 ≤ x → x ∈ held (.socket fd :: log) := by
      simp [Event.used]
    exact hsocket.of_neutral (N := [_, _, _, _]) (by simp [Neutral, Event.isNeutral, Event.opened,
      Event.obtained, Event.released]) hnone

/-- Reading from the client and looking at what was read. -/
theorem examined (h : Unspoilt os log) {sock : Int} (hc : sock ∈ held log)
    (answer : Option (List Byte)) : Unspoilt os (examinedLog sock answer log) := by
  refine h.of_neutral (Sound.examined_neutral _ _) fun e he fd hfd _ => ?_
  rcases mem_examined he with rfl | ⟨i, rfl, -⟩
  · obtain rfl := List.mem_singleton.mp hfd
    exact hc
  · exact absurd hfd List.not_mem_nil

/-- An accepted connection is not descriptor 0, which is open. -/
theorem accepted (h : Unspoilt os s.log) (hs : s.data.serverSock ∈ held s.log) :
    Unspoilt os (acceptedLog os s) := by
  have hne : (0 : Int) ≠ os.accept s.log s.data.serverSock := accept_ne h.inherited le_rfl
  refine ⟨⟨fun fd hfd _ => ?_, h.used⟩, ?_, ?_⟩
  · obtain rfl := List.mem_singleton.mp hfd
    exact hs
  · simp [acceptedLog, mem_openFds_cons, Event.released, h.inherited]
  · by_cases hneg : os.accept s.log s.data.serverSock < 0 <;>
      simp [acceptedLog, mem_held_cons, Event.obtained, h.foreign, hneg, hne]

theorem called {c : Command} {args : List Byte} {len : ℕ} {s1 : St} (h : Unspoilt os s.log)
    (hc : s.data.clientSock ∈ held s.log) (hcall : Called os s c args len s1) :
    Unspoilt os s1.log ∧ s1.data = s.data ∧ s1.data.clientSock ∈ held s1.log := by
  cases hcall with
  | @mk bytes name c =>
    have hu := h.examined hc (some bytes)
    have hN : Neutral (VsFtp.examined s.data.clientSock (some bytes)) := Sound.examined_neutral _ _
    refine ⟨((hu.mark ⟨rfl, rfl⟩ rfl).mark ⟨rfl, rfl⟩ rfl).mark ⟨rfl, rfl⟩ rfl, rfl, ?_⟩
    have hN' : Neutral (.dispatch c (lineArgs (lineBuffer bytes) (bytes.length - 2) name) ::
        .request (lineBuffer bytes) (bytes.length - 2) :: .index (bytes.length - 2) ::
        VsFtp.examined s.data.clientSock (some bytes)) :=
      .cons (.cons (.cons hN ⟨rfl, rfl⟩) ⟨rfl, rfl⟩) ⟨rfl, rfl⟩
    exact mem_held_of_neutral hN' hc

theorem starts {r : Int} (h : Unspoilt os s.log) (hs : Starting os s r s') :
    Unspoilt os s'.log ∧ s'.data.transferClientSock = s.data.transferClientSock := by
  cases hs with
  | failed hd =>
    obtain ⟨cwd, cwdLen, rfl⟩ := hd.exists_eq
    exact ⟨h.of_lookups hd.lookups, rfl⟩
  | uncreated hd hC =>
    obtain ⟨cwd, cwdLen, rfl⟩ := hd.exists_eq
    exact ⟨(h.of_lookups hd.lookups).created rfl hC, rfl⟩
  | started hd hC =>
    obtain ⟨cwd, cwdLen, rfl⟩ := hd.exists_eq
    exact ⟨(h.of_lookups hd.lookups).created rfl hC, rfl⟩

theorem waits {r : Int} (h : Unspoilt os s.log) (hi : Sound os s)
    (hc : s.data.isServerSocketCreated = true) (hs : Waiting os s r s')
    (hl : 0 ≤ os.accept s.log s.data.serverSock ∨ os.errno (acceptedLog os s) = eagain) :
    Unspoilt os s'.log ∧ s'.data.transferClientSock = s.data.transferClientSock := by
  have hacc : Unspoilt os (acceptedLog os s) := h.accepted (hi.server hc).held
  -- the greeting goes to the new socket
  have hgreet : ∀ {L : List Event} {d : ServerData} {w : Int},
      0 ≤ os.accept s.log s.data.serverSock →
      Entering os (acceptedLog os s) s.data.rootPath (acceptedData os s) 0 d L →
      Unspoilt os (.write .client d.clientSock greeting w :: (L ++ acceptedLog os s)) := by
    intro L d w ha hd
    refine hacc.replied hd.lookups ?_
    rw [hd.clientSock]
    have hopen : ¬ os.accept s.log s.data.serverSock < 0 := by omega
    simp [acceptedLog, acceptedData, mem_held_cons, Event.obtained, hopen]
  have hsock : ∀ {r : Int} {L : List Event} {d : ServerData},
      Entering os (acceptedLog os s) s.data.rootPath (acceptedData os s) r d L →
      d.transferClientSock = s.data.transferClientSock := by
    intro r L d hd
    obtain ⟨cwd, cwdLen, rfl⟩ := hd.exists_eq
    rfl
  cases hs with
  | idle => exact ⟨hacc, rfl⟩
  | stopped ha herr => exact absurd hl (by simp [herr, ha])
  | homeless _ hd => exact ⟨hacc.of_lookups hd.lookups, hsock hd⟩
  | ungreeted ha hd => exact ⟨hgreet ha hd, hsock hd⟩
  | connected ha hd =>
    have h0 := hsock hd
    exact ⟨hgreet ha hd, h0⟩

theorem converses {r : Int} (h : Unspoilt os s.log) (hc : s.data.clientSock ∈ held s.log)
    (hs : Step os s r s')
    (hl : (∃ c args len s1, Called os s c args len s1 ∧ c.sparesTransfers args len) ∨
      received os s ≠ some [] ∧ ¬ IsLine ((received os s).getD []) ∧
        os.errno (examinedLog s.data.clientSock (received os s) s.log) = eagain)
    (hcreated : s.data.isServerSocketCreated = true) (hcon : s.data.isConnected = true)
    (hw : ∀ e ∈ s'.log, e.isRefused = false) :
    Unspoilt os s'.log ∧ s'.data.transferClientSock = s.data.transferClientSock := by
  rcases hl with ⟨c, args, len, s1, hcall, hspare⟩ | ⟨hne, hline, herr⟩
  · obtain ⟨-, r1, s2, ho, hh⟩ := hs.of_called hcall
    obtain ⟨hu, hdata, hc1⟩ := h.called hc hcall
    obtain ⟨hu2, hsock, e, he, hok⟩ := hu.outcome hc1 hspare ho
    -- the reply was sent, so the command has succeeded
    have hok := hok (hw e (hh.adds.suffix.subset he))
    cases hh with
    | kept => exact ⟨hu2.mark ⟨rfl, rfl⟩ rfl, hsock.trans (by rw [hdata])⟩
    | retired hr => exact absurd hok hr
  · cases hs with
    | starting hn => simp [hcreated] at hn
    | waiting _ hn => simp [hcon] at hn
    | conversing _ _ hs =>
      cases hs with
      | line hread hl =>
        rw [hread] at hline
        exact absurd hl hline
      | closed hread => exact absurd hread hne
      | ignored => exact ⟨h.examined hc _, rfl⟩
      | stopped hread _ _ herr' =>
        rw [← hread] at herr'
        exact absurd herr herr'

theorem killed (h : Unspoilt os s.log) (hi : Sound os s) (hk : Killing os s s') :
    Unspoilt os s'.log := by
  cases hk with
  | starting _ hk =>
    obtain ⟨-, L, hL, rfl⟩ := hk
    exact h.of_lookups hL
  | waiting hc _ _ hk =>
    obtain ⟨-, L, hL, rfl⟩ := hk
    exact (h.accepted (hi.server hc).held).of_lookups hL
  | conversing hc hcon hk =>
    have hclient := (hi.client hcon).1.held
    cases hk with
    | overlong =>
      refine Unspoilt.mark ?_ ⟨rfl, rfl⟩ rfl
      refine h.of_neutral (N := [_]) (.cons .nil ⟨rfl, rfl⟩) fun e he fd hfd _ => ?_
      obtain rfl := List.mem_singleton.mp he
      obtain rfl := List.mem_singleton.mp hfd
      exact hclient
    | line hread hline hk =>
      obtain ⟨name, c, hfind, -, -, L, hL, rfl⟩ := hk
      exact (h.called hclient (.mk hc hcon hread hline hfind)).1.of_lookups hL

/-- **A turn that leaves the transfer sockets alone uses only sockets that are held**, and the
field of the transfer client stays as it is. -/
theorem turn (h : Unspoilt os s.log) (hi : Sound os s) (hl : LeavesTransfers os s)
    (hw : ∀ e ∈ (serverHandler os s).2.log, e.isRefused = false) :
    Unspoilt os (serverHandler os s).2.log ∧ ∀ r s', serverHandler os s = (some r, s') →
      s'.data.transferClientSock = s.data.transferClientSock := by
  rcases hrun : serverHandler os s with ⟨_ | r, s'⟩
  · exact ⟨h.killed hi (Killing.of_run hi.configured hrun), fun r s₁ h' =>
      absurd (Prod.mk.inj h').1 (by simp)⟩
  · rw [hrun] at hw
    have hs := Step.of_run hi.configured hrun
    have hstep : Unspoilt os s'.log ∧ s'.data.transferClientSock = s.data.transferClientSock := by
      cases hs with
      | starting _ hs => exact h.starts hs
      | waiting hc hcon hs =>
        have hl := hl hc
        rw [if_neg (by simp [hcon])] at hl
        exact h.waits hi hc hs hl
      | conversing hc hcon hs =>
        have hl := hl hc
        rw [if_pos hcon] at hl
        exact h.converses (hi.client hcon).1.held (.conversing hc hcon hs) hl hc hcon hw
    refine ⟨hstep.1, fun r₁ s₁ h' => ?_⟩
    obtain rfl : s' = s₁ := (Prod.mk.inj h').2
    exact hstep.2

/-- **Stopping the server spoils it**: what is shut down first is descriptor 0. -/
theorem not_usesHeld_of_stops (h : Unspoilt os s.log) (h0 : s.data.transferClientSock = 0)
    (hs : Stops s s') : ¬ UsesHeld s'.log := by
  intro hu
  cases hs with
  | @mk X Y Z W hX =>
    have hX' : UsesHeld (X ++ .stopped :: s.log) := hu.of_append.of_append.of_append
    rw [h0] at hX
    have hshut : ∀ {r : Int}, ¬ UsesHeld (.shutdown .checked 0 r :: .stopped :: s.log) := by
      intro r hr
      have hheld := hr.1 0 (List.mem_singleton_self 0) le_rfl
      exact (h.mark ⟨rfl, rfl⟩ rfl).foreign hheld
    cases hX with
    | absent h => exact absurd h (by decide)
    | lost => exact hshut hX'
    | closed => exact hshut hX'.2

end Unspoilt

/-- Until it is stopped the server has used only sockets it held, and the field of the transfer
client has the zero it was loaded with. -/
theorem MainCalls.unspoilt
    (hl : ∀ s, MainCalls os quit turns args s → LeavesTransfers os s ∧
      ∀ e ∈ (serverHandler os s).2.log, e.isRefused = false)
    {name : List Byte} {argv : Argv} {s₀ : St} {k : ℕ}
    (hargs : args = [name, argv.ipAddr, argv.port, argv.rootPath]) (h0 : Started os argv s₀)
    (h : Head os (fun _ => True) (mainBody quit) () s₀ k () s) (hk : k ≤ turns) :
    Unspoilt os s.log ∧ s.data.transferClientSock = 0 := by
  subst hargs
  generalize hv : () = v at h
  induction h with
  | start =>
    obtain ⟨hf, hL⟩ := started_spec h0
    have hnil := Unspoilt.of_lookups (@Unspoilt.nil os) hL
    rw [List.append_nil] at hnil
    exact ⟨hnil, hf.transferClient⟩
  | @next k v v' s s' hhead _ hrun ih =>
    obtain ⟨hu, hzero⟩ := ih (by omega) rfl
    obtain ⟨hleaves, hsent⟩ := hl s (.mk h0 (by omega) hhead)
    have hi := (Head.reachable h0 hhead).sound
    rcases mainBody_run hrun with ⟨r, -, -, ho⟩ | ⟨ht, -⟩
    · exact absurd ho (by simp)
    · obtain ⟨hu', hsock⟩ := hu.turn hi hleaves hsent
      have hs' : (serverHandler os s).2 = s' := congrArg Prod.snd ht
      rw [hs'] at hu'
      exact ⟨hu', (hsock 0 s' ht).trans hzero⟩

/-- **As long as no turn of `main` closes the transfer sockets, only sockets are used that are
held, until `main` stops the server**: in every run of `main` all of whose turns leave the transfer
sockets alone and send their replies.  When it comes to its `VSFTPServerStop`, that shuts down
descriptor 0, so that in the whole of the run only held sockets are used if and only if it does not
come there. -/
theorem only_held_used
    (hl : ∀ s, MainCalls os quit turns args s → LeavesTransfers os s ∧
      ∀ e ∈ (serverHandler os s).2.log, e.isRefused = false) :
    UsesHeld (main quit turns args os St.zero).2.log ↔ ¬ MainStops os quit turns args := by
  have hcalls : ∀ {s : St}, MainCalls os quit turns args s →
      Unspoilt os (serverHandler os s).2.log ∧ ∀ r s', serverHandler os s = (some r, s') →
        s'.data.transferClientSock = 0 := by
    intro s hs
    obtain ⟨hleaves, hsent⟩ := hl s hs
    cases hs with
    | mk h0 hk h =>
      obtain ⟨hu, hzero⟩ := MainCalls.unspoilt hl rfl h0 h hk.le
      obtain ⟨hu', hsock⟩ := hu.turn (Head.reachable h0 h).sound hleaves hsent
      exact ⟨hu', fun r s' hrun => (hsock r s' hrun).trans hzero⟩
  constructor
  · intro hu hstops
    obtain ⟨s, r, s₁, hs, hrun, hst⟩ := hstops.stops
    obtain ⟨hu₁, hzero⟩ := hcalls hs
    rw [hrun] at hu₁
    exact hu₁.not_usesHeld_of_stops (hzero r s₁ hrun) hst hu
  · intro hno
    have hended := main_ended os quit turns args
    generalize main quit turns args os St.zero = out at hended ⊢
    obtain ⟨r, s'⟩ := out
    cases hended with
    | refused _ h =>
      have hnil := Unspoilt.of_lookups (@Unspoilt.nil os) h.lookups
      rw [List.append_nil] at hnil
      exact hnil.used
    | failed h hrun hr => exact absurd ⟨_, _, _, h, hrun, Or.inl hr⟩ hno
    | quitted h ht hq => exact absurd ⟨_, _, _, h, ht, Or.inr hq⟩ hno
    | killed h hrun =>
      have hu := (hcalls h).1
      rw [hrun] at hu
      exact hu.used
    | exhausted h0 h => exact (MainCalls.unspoilt hl rfl h0 h le_rfl).1.used

/-- A machine on which a client logs in, asks for the system, the working directory and the type,
and enters a directory. -/
def sparingHost : Host :=
  { nodes := [Host.srv, Host.docs],
    reads := ["USER anonymous", "SYST", "PWD", "TYPE A", "CWD docs"].map fun l =>
      some (ascii l ++ crlf) }

/-- The states in which the handler is called there. -/
def sparingState (k : ℕ) : St := Host.run sparingHost.os k (Host.start sparingHost.os Host.argv)

/-- Seven calls of the handler: the start, the greeting and the five commands. -/
theorem only_held_used_commands :
    UsesHeld (main (fun _ => false) 7 quitArgv sparingHost.os St.zero).2.log := by
  have hturns : ∀ k < 7, (serverHandler sparingHost.os (sparingState k)).1 = some 0 ∧
      ∀ e ∈ (serverHandler sparingHost.os (sparingState k)).2.log, e.isRefused = false := by
    decide +kernel
  have hstart : (sparingState 0).data.isServerSocketCreated = false := by decide +kernel
  have hgreet : (sparingState 1).data.isConnected = false ∧ 0 ≤ sparingHost.os.accept
      (sparingState 1).log (sparingState 1).data.serverSock := by decide +kernel
  have hcalls : ∀ k < 5, (calling sparingHost.os (sparingState (k + 2))).any fun x =>
      decide (x.1.sparesTransfers x.2.1 x.2.2.1) := by decide +kernel
  have hleaves : ∀ k < 7, LeavesTransfers sparingHost.os (sparingState k) := by
    intro k hk
    rcases k with _ | _ | k
    · exact fun hc => absurd (hstart.symm.trans hc) Bool.false_ne_true
    · exact fun _ => (if_neg (by simp [hgreet.1])).mpr (Or.inl hgreet.2)
    · exact .of_calling (hcalls k (by omega))
  refine (only_held_used ?_).mpr ?_
  · intro s hs
    obtain ⟨k, hk, rfl⟩ := Host.mainCalls_run Host.argv rfl hs
    exact ⟨hleaves k hk, (hturns k hk).2⟩
  · rintro ⟨s, r, s', hs, hrun, hr⟩
    obtain ⟨k, hk, rfl⟩ := Host.mainCalls_run Host.argv rfl hs
    have h0 : r = 0 := by
      have hzero := (hturns k hk).1
      rw [sparingState, hrun] at hzero
      exact Option.some.inj hzero
    exact hr.elim (fun hne => hne h0) Bool.false_ne_true

/-- A machine on which the client's first command is `PASV`. -/
def passiveHost : Host := { nodes := [Host.srv], reads := [some (ascii "PASV" ++ crlf)] }

/-- **The first `PASV` closes the standard input**: descriptor 0 is closed, which the
server never got from `socket` or `accept`. -/
theorem pasv_closes_stdin :
    let s := Host.run passiveHost.os 3 (Host.start passiveHost.os Host.argv)
    Reachable passiveHost.os Host.argv s ∧ ¬ UsesHeld s.log ∧ Event.close 0 0 ∈ s.log ∧
      ∀ e ∈ s.log, 0 ∉ e.obtained := by
  refine ⟨Host.reachable_run (by decide +kernel), ?_, ?_, ?_⟩ <;> decide +kernel

end VsFtp
