import VsFtp.Records

/-!
# Invariants of all runs

What holds in every reachable state, whatever the clients and the system do: the
configuration never changes, and the sockets the server works with are its own.

## Main definitions

* `ServerData.config` — the part of the record that is set before the loop.
* `Spared` — a socket is held, and it is not the one of a transfer.
* `Sound` — the invariant.
* `Homed` — the working directory is a directory's path, and its length is known.

## Main results

* `started_spec` — the state in which `main` reaches its loop.
* `Sound.step` — **a step that returns zero keeps the invariant.**
* `Reachable.sound` — **the invariant holds in every reachable state.**
* `Reachable.homed` — while a client is connected there is a working directory.
-/

namespace VsFtp

open CString Prog

attribute [local irreducible] serverSendReply helpText

variable {os : Os} {s s' s1 s2 : St}

/-! ### The configuration -/

/-- What `VSFTPServerInitialize` stores. -/
def ServerData.config (d : ServerData) : UInt16 × List Byte × ℕ × List Byte × ℕ :=
  (d.port, d.rootPath, d.rootPathLen, d.ipAddr, d.ipAddrLen)

theorem Configured.of_config {d d' : ServerData} (h : Configured d) (he : d'.config = d.config) :
    Configured d' := by
  simp only [ServerData.config, Prod.mk.injEq] at he
  obtain ⟨-, hroot, hlen, haddr, -⟩ := he
  exact ⟨hroot ▸ h.canonical, hroot ▸ h.noNul, by rw [hroot, hlen]; exact h.length_eq,
    hroot ▸ h.length_lt, haddr ▸ h.addressed⟩

section Config

variable {r : Int}

theorem Entering.config {log : Log} {dir : List Byte} {d d' : ServerData} {L : List Event}
    (h : Entering os log dir d r d' L) : d'.config = d.config := by
  cases h <;> rfl

theorem Outcome.config {args : List Byte} {len : ℕ} {c : Command}
    (h : Outcome os s args len c r s') : s'.data.config = s.data.config := by
  cases h with
  | answered _ h => cases h; rfl
  | rejected _ h hd => cases h; cases hd; rfl
  | moved h =>
    cases h with
    | stayed => rfl
    | moved _ _ hd => exact hd.config
  | sized h => cases h <;> rfl
  | passive h => cases h; rfl
  | listed _ h => cases h; rfl
  | sent _ h => cases h; rfl

theorem Handled.config (h : Handled s r s') : s'.data.config = s.data.config := by
  cases h <;> rfl

theorem Stops.config (h : Stops s s') : s'.data.config = s.data.config := by
  cases h; rfl

/-- Only the working directory changes. -/
theorem Entering.exists_eq {log : Log} {dir : List Byte} {d d' : ServerData} {L : List Event}
    (h : Entering os log dir d r d' L) :
    ∃ cwd cwdLen, d' = { d with cwd := cwd, cwdLen := cwdLen } := by
  cases h <;> exact ⟨_, _, rfl⟩

theorem Entering.isConnected {log : Log} {dir : List Byte} {d d' : ServerData} {L : List Event}
    (h : Entering os log dir d r d' L) : d'.isConnected = d.isConnected := by
  cases h <;> rfl

/-- Starting connects no client. -/
theorem Starting.isConnected (h : Starting os s r s') :
    s'.data.isConnected = s.data.isConnected := by
  cases h with
  | failed hd => exact hd.isConnected
  | uncreated hd => exact hd.isConnected
  | started hd => exact hd.isConnected

/-- **A step leaves the configuration alone.** -/
theorem Step.config (h : Step os s r s') : s'.data.config = s.data.config := by
  cases h with
  | starting _ hs =>
    cases hs with
    | failed hd => exact hd.config
    | uncreated hd => exact hd.config
    | started hd => exact hd.config
  | waiting _ _ hs =>
    cases hs with
    | idle => rfl
    | stopped _ _ h => exact h.config
    | homeless _ hd => exact hd.config
    | ungreeted _ hd => exact hd.config
    | connected _ hd => exact hd.config
  | conversing _ _ hs =>
    cases hs with
    | line _ _ hp hh =>
      rw [hh.config]
      cases hp with
      | known _ ho => exact ho.config
      | unknown => rfl
    | closed _ h => cases h; rfl
    | ignored => rfl
    | stopped _ _ _ _ h => exact h.config

end Config

/-! ### The start of the program -/

/-- The value of a number. -/
def number (part : List Byte) : ℕ := part.foldl (fun n c => 10 * n + (c.toNat - 48)) 0

/-- A number of one to three digits, at most 255. -/
structure IsOctet (part : List Byte) : Prop where
  length_pos : 0 < part.length
  length_le : part.length ≤ 3
  digits : ∀ c ∈ part, 48 ≤ c ∧ c ≤ 57
  number_le : number part ≤ 255

/-- **An address that `inet_pton` accepts consists of four octets.** -/
theorem exists_octets {ip : List Byte} (h : inetPton ip = true) :
    ∃ a b c d, IsOctet a ∧ IsOctet b ∧ IsOctet c ∧ IsOctet d ∧
      ip = a ++ 46 :: (b ++ 46 :: (c ++ 46 :: d)) := by
  unfold inetPton at h
  simp only [Bool.and_eq_true, decide_eq_true_eq, List.all_eq_true] at h
  obtain ⟨hfour, hparts⟩ := h
  have hjoin : [46].intercalate (ip.splitOn 46) = ip := List.intercalate_splitOn 46
  match hsplit : ip.splitOn (46 : Byte), hfour with
  | [a, b, c, d], _ =>
    rw [hsplit] at hjoin hparts
    have hoctet : ∀ part ∈ [a, b, c, d], IsOctet part := by
      intro part hp
      obtain ⟨⟨⟨⟨hpos, hle⟩, hdigits⟩, hnumber⟩, -⟩ := hparts part hp
      exact ⟨hpos, hle, hdigits, hnumber⟩
    refine ⟨a, b, c, d, hoctet a (by simp), hoctet b (by simp), hoctet c (by simp),
      hoctet d (by simp), ?_⟩
    rw [← hjoin]
    simp [List.intercalate]

/-- An address that `inet_pton` accepts fits its array. -/
theorem length_lt_of_inetPton {ip : List Byte} (h : inetPton ip = true) :
    ip.length < inetAddrstrlen := by
  obtain ⟨a, b, c, d, ha, hb, hc, hd, rfl⟩ := exists_octets h
  have h1 := ha.length_le
  have h2 := hb.length_le
  have h3 := hc.length_le
  have h4 := hd.length_le
  simp only [List.length_append, List.length_cons, inetAddrstrlen]
  omega

/-- The record when `main` reaches its loop. -/
structure Fresh (d : ServerData) : Prop where
  configured : Configured d
  created : d.isServerSocketCreated = false
  connected : d.isConnected = false
  transferClient : d.transferClientSock = 0

theorem addressed_strncpy {ip : List Byte} (h : ip.length < inetAddrstrlen) :
    Addressed (strncpy [] 0 ip inetAddrstrlen) := by
  intro t
  obtain ⟨k, hk⟩ : ∃ k, inetAddrstrlen - ip.length = k + 1 :=
    ⟨inetAddrstrlen - ip.length - 1, by omega⟩
  rw [strncpy_zero h.le, List.drop_nil, List.append_nil, hk, List.replicate_succ,
    List.append_assoc, List.cons_append]
  exact Nat.lt_of_le_of_lt (cstr_length_le_of_nul _ _) h

/-- The record holds the address of the command line, which `inet_pton` accepts. -/
structure Located (ipAddr : List Byte) (d : ServerData) : Prop where
  valid : inetPton ipAddr = true
  stored : d.ipAddr = strncpy [] 0 ipAddr inetAddrstrlen

theorem wp_mainStart {argv : Argv} : wp os (mainStart argv) (fun r s' => r = 0 →
    Fresh s'.data ∧ Located argv.ipAddr s'.data ∧ Lookups s'.log ∧
      ∃ p, .realpath p (some s'.data.rootPath) ∈ s'.log) (fun _ => False) St.zero := by
  unfold mainStart
  refine wp_ite (fun _ => by simp) (fun hip => wp_ite (fun _ => by simp) (fun _ => ?_))
  have hip' : inetPton argv.ipAddr = true := by simpa using hip
  have hlen := length_lt_of_inetPton hip'
  -- `main` checks the root path first
  have hdir : wp os (filesystemIsDir argv.rootPath argv.rootPath.length : ServerM _)
      (fun _ s' => s'.data = ServerData.zero ∧ Lookups s'.log) (fun _ => False) St.zero := by
    by_cases hpos : 0 < argv.rootPath.length
    · refine wp_mono (wp_filesystemHasKind hpos) ?_ fun _ h => h
      rintro _ _ ⟨-, rfl⟩
      exact ⟨rfl, .cons rfl .nil⟩
    · unfold filesystemIsDir filesystemHasKind
      rw [if_neg hpos]
      exact ⟨rfl, .nil⟩
  refine wp_seq hdir ?_
  rintro retval ⟨_, l⟩ ⟨rfl, hl⟩
  refine wp_ite (fun _ => by simp) (fun _ => ?_)
  unfold serverInitialize
  refine wp_ite (fun _ => ?_) (fun _ => by simp)
  refine (wp_bind _ _).mpr ((wp_modifyData _).mpr (wp_seq wp_filesystemGetRealPath ?_))
  rintro out _ ⟨L, hres, rfl⟩
  cases hres with
  | failed => simp
  | @found p r hp ha hshort =>
    obtain ⟨hr, hn⟩ := os.realpath_canonical ha
    refine wp_ite (fun _ => ?_) (fun h => absurd rfl h)
    refine wp_seq (wp_readString_found hn hshort) ?_
    rintro _ _ ⟨rfl, rfl⟩
    refine (wp_bind _ _).mpr ((wp_modifyData _).mpr ?_)
    refine wp_mono (wp_filesystemHasKind hr.length_pos) ?_ fun _ h => h
    rintro _ _ ⟨-, rfl⟩ -
    exact ⟨⟨⟨hr, hn, rfl, hshort, addressed_strncpy hlen⟩, rfl, rfl, rfl⟩, ⟨hip', rfl⟩,
      .cons rfl (.cons rfl hl), p, List.mem_cons_of_mem _ List.mem_cons_self⟩

/-- **The loop of `main` starts on a configured record**, and until then only
lookups were made. -/
theorem started_spec {argv : Argv} (h : Started os argv s) : Fresh s.data ∧ Lookups s.log :=
  have hspec := of_wp_run wp_mainStart h rfl
  ⟨hspec.1, hspec.2.2.1⟩

theorem started_located {argv : Argv} (h : Started os argv s) : Located argv.ipAddr s.data :=
  (of_wp_run wp_mainStart h rfl).2.1

/-- The root path is what `realpath` returned. -/
theorem started_resolved {argv : Argv} (h : Started os argv s) :
    ∃ p, .realpath p (some s.data.rootPath) ∈ s.log := (of_wp_run wp_mainStart h rfl).2.2.2

/-! ### Sockets that stay -/

/-- A socket that is held and is not the one of a transfer. -/
structure Spared (z : Int) (s : St) : Prop where
  held : z ∈ held s.log
  transfer : z ≠ s.data.transferSock
  transferClient : z ≠ s.data.transferClientSock

theorem ne_neg_of_mem_held {z : Int} {log : Log} (h : z ∈ held log) : z ≠ -1 := by
  have := nonneg_of_mem_held h
  omega

theorem accept_ne {z fd : Int} {log : Log} (h : z ∈ openFds os.inherited log) (hz : 0 ≤ z) :
    z ≠ os.accept log fd := by
  rintro rfl
  rcases os.accept_fresh log fd with h1 | ⟨-, h1⟩
  · omega
  · exact h1 h

theorem socket_ne {z : Int} {log : Log} (h : z ∈ openFds os.inherited log) (hz : 0 ≤ z) :
    z ≠ os.socket log := by
  rintro rfl
  rcases os.socket_fresh log with h1 | ⟨-, h1⟩
  · omega
  · exact h1 h

section Held

variable {z x : Int} {log : Log} {X : List Event} {r : Int}

theorem Closes.mem_held {fd : Int} (h : Closes fd X) (hz : z ∈ VsFtp.held log) (hne : z ≠ fd) :
    z ∈ VsFtp.held (X ++ log) := (h.mem_held_iff hne).mpr hz

theorem mem_held_of_neutral {N : List Event} (hN : Neutral N) (hz : z ∈ held log) :
    z ∈ held (N ++ log) := by
  rw [held_append_of_neutral hN]
  exact hz

/-- Creating a socket leaves the others alone. -/
theorem Creates.mem_held {port : UInt16} {fd : Int} (h : Creates port r fd X)
    (hz : z ∈ VsFtp.held log) (hne : z ≠ fd) : z ∈ VsFtp.held (X ++ log) := by
  -- of the records of an attempt only the one of `socket` and its `close` are about `fd`
  refine (Ledger.mem_live_append (fun e he hze => ?_) fun e he hze => ?_).mpr hz
  · cases h with
    | failed _ hN =>
      simp only [List.mem_cons, List.mem_append, List.not_mem_nil, or_false] at he
      rcases he with rfl | rfl | he | rfl
      · simp [Event.obtained] at hze
      · simp [Event.obtained] at hze
      · have hN := Event.isNeutral_of_isSetup (hN e he)
        have hsub := e.obtained_subset_opened hze
        rw [hN.1] at hsub
        exact List.not_mem_nil hsub
      · simp only [Event.obtained] at hze
        split at hze <;> simp [hne] at hze
    | created =>
      simp only [List.mem_cons, List.not_mem_nil, or_false] at he
      rcases he with rfl | rfl | rfl | rfl | rfl <;> simp [Event.obtained, hne] at hze
  · cases h with
    | failed _ hN =>
      simp only [List.mem_cons, List.mem_append, List.not_mem_nil, or_false] at he
      rcases he with rfl | rfl | he | rfl
      · simp [Event.released, hne] at hze
      · simp [Event.released] at hze
      · have hN := Event.isNeutral_of_isSetup (hN e he)
        rw [hN.2] at hze
        exact List.not_mem_nil hze
      · simp [Event.released] at hze
    | created =>
      simp only [List.mem_cons, List.not_mem_nil, or_false] at he
      rcases he with rfl | rfl | rfl | rfl | rfl <;> simp [Event.released] at hze

theorem Announces.neutral {c : Int} {P : List Event} (h : Announces c r P) : Neutral P := by
  cases h with
  | refused => exact .nil
  | sent => exact Neutral.nil.write

theorem mem_held_accept {who : Slot} {t a : Int} (hz : z ∈ held log) :
    z ∈ held (.accept who t a :: log) :=
  mem_held_cons.mpr (Or.inr ⟨hz, List.not_mem_nil⟩)

/-- A transfer leaves the sockets alone that are not the ones of a transfer. -/
theorem Transferring.mem_held {B : Int → Log → Int → List Event → Prop} {d : ServerData}
    {T : List Event} {r0 t : Int} (hB : ∀ {x log r D}, B x log r D → Sparing log D)
    (h : Transferring B d (os.accept log t) log r0 r x T) (hz : z ∈ VsFtp.held log)
    (hne : z ≠ d.transferClientSock) : z ∈ VsFtp.held (T ++ log) ∧ z ≠ x := by
  have hacc : z ≠ os.accept log t := accept_ne (held_subset_openFds hz) (nonneg_of_mem_held hz)
  cases h with
  | skipped => exact ⟨hz, hne⟩
  | unconnected hA =>
    generalize hr : (-1 : Int) = r at hA
    cases hA with
    | absent => exact ⟨hz, hne⟩
    | refused => exact ⟨mem_held_accept hz, hne⟩
    | accepted => exact absurd hr (by decide)
  | unannounced _ _ hP =>
    rw [List.append_assoc]
    exact ⟨mem_held_of_neutral hP.neutral (mem_held_accept hz), hacc⟩
  | transferred _ _ hP hD =>
    rw [List.append_assoc, List.append_assoc]
    exact ⟨(hB hD).mem_held_iff.mpr (mem_held_of_neutral hP.neutral (mem_held_accept hz)), hacc⟩

end Held

/-- The records of a listing open and close no socket. -/
theorem listing_sparing {path : List Byte} {x r : Int} {log : Log} {D : List Event}
    (h : listing path x log r D) : Sparing log D := by
  intro e he
  have hl := h e he
  cases e <;> first | exact False.elim hl | exact ⟨rfl, by simp [Event.released]⟩

namespace Spared

variable {z : Int}

theorem nonneg (h : Spared z s) : 0 ≤ z := nonneg_of_mem_held h.held

theorem of_neutral {N : List Event} (hN : Neutral N) (h : Spared z s) :
    Spared z ⟨s.data, N ++ s.log⟩ :=
  ⟨mem_held_of_neutral hN h.held, h.transfer, h.transferClient⟩

/-- A socket that is held stays spared if there are no transfer sockets. -/
theorem of_absent (hz : z ∈ VsFtp.held s.log) (ht : s.data.transferSock = -1)
    (hc : s.data.transferClientSock = -1) : Spared z s :=
  ⟨hz, ht ▸ ne_neg_of_mem_held hz, hc ▸ ne_neg_of_mem_held hz⟩

/-- Closing the transfer sockets spares the others. -/
theorem retired {X Y : List Event} (h : Spared z s) (hX : Closes s.data.transferClientSock X)
    (hY : Closes s.data.transferSock Y) : z ∈ VsFtp.held (Y ++ (X ++ s.log)) :=
  hY.mem_held (hX.mem_held h.held h.transferClient) h.transfer

theorem disconnects (h : Spared z s) (hc : z ≠ s.data.clientSock) (hd : Disconnects s s') :
    Spared z s' := by
  cases hd with
  | mk hX hY hZ =>
    have h1 : z ∈ VsFtp.held (.disconnect :: s.log) :=
      mem_held_cons.mpr (Or.inr ⟨h.held, List.not_mem_nil⟩)
    have h2 := hY.mem_held (hX.mem_held h1 h.transferClient) h.transfer
    exact of_absent (hZ.mem_held h2 hc) rfl rfl

theorem transferred {B : Int → Log → Int → List Event → Prop} {r0 r : Int}
    (hB : ∀ {x log r D}, B x log r D → Sparing log D) (h : Spared z s)
    (ht : Transferred os B r0 s r s') : Spared z s' := by
  cases ht with
  | @mk retval x w T X Y text hT hX hY ht =>
    obtain ⟨h1, hx⟩ := hT.mem_held hB h.held h.transferClient
    have h2 := hY.mem_held (hX.mem_held h1 hx) h.transfer
    have h3 : z ∈ VsFtp.held
        (.write .client s.data.clientSock text w :: (Y ++ (X ++ (T ++ s.log)))) :=
      mem_held_of_neutral Neutral.nil.write h2
    exact of_absent h3 rfl rfl

theorem passive {r : Int} (h : Spared z s) (hp : Passive os s r s') : Spared z s' := by
  cases hp with
  | @mk X Y C retval w text hX hY hC ht =>
    have h1 := h.retired hX hY
    have hne : z ≠ os.socket (Y ++ (X ++ s.log)) :=
      socket_ne (held_subset_openFds h1) h.nonneg
    refine ⟨?_, hne, ne_neg_of_mem_held h.held⟩
    exact mem_held_of_neutral Neutral.nil.write (hC.mem_held h1 hne)

theorem outcome {args : List Byte} {len : ℕ} {c : Command} {r : Int} (h : Spared z s)
    (ho : Outcome os s args len c r s')
    (hc : s'.data.isConnected = true ∨ z ≠ s.data.clientSock) : Spared z s' := by
  -- a reply behind some lookups
  have hanswered : ∀ {r : Int} {s' : St}, Answered s r s' → Spared z s' := by
    intro r s' h'
    cases h' with
    | mk hL => exact ⟨mem_held_of_neutral hL.neutral.write h.held, h.2, h.3⟩
  cases ho with
  | answered _ h' => exact hanswered h'
  | rejected _ h' hd =>
    have hz : z ≠ s.data.clientSock := by
      cases hd with
      | mk => exact hc.resolve_left (by simp [ServerData.disconnected])
    cases h' with
    | mk hL =>
      refine disconnects ?_ ?_ hd
      · exact ⟨mem_held_of_neutral hL.neutral.write h.held, h.2, h.3⟩
      · exact hz
  | moved h' =>
    cases h' with
    | stayed hL => exact h.of_neutral hL.neutral.write
    | @moved p r d' L text w hp ha hd ht =>
      have hL : Lookups (L ++ [.realpath p (some r)]) := hd.lookups.append (.cons rfl .nil)
      have h1 : z ∈ VsFtp.held (.write .client s.data.clientSock text w ::
          (L ++ .realpath p (some r) :: s.log)) := by
        rw [List.append_cons]
        exact mem_held_of_neutral hL.neutral.write h.held
      cases hd with
      | failed hr => exact absurd rfl hr
      | entered => exact ⟨h1, h.2, h.3⟩
  | sized h' => exact hanswered h'.answered
  | passive h' => exact h.passive h'
  | listed hL h' => exact (h.of_neutral hL.lookups.neutral).transferred listing_sparing h'
  | sent hL h' => exact (h.of_neutral hL.lookups.neutral).transferred Sends.sparing h'

end Spared

/-- What a handler does to the session: nothing, or it disconnects the client. -/
theorem Outcome.session {args : List Byte} {len : ℕ} {c : Command} {r : Int}
    (h : Outcome os s args len c r s') :
    s'.data.isServerSocketCreated = s.data.isServerSocketCreated ∧
      s'.data.serverSock = s.data.serverSock ∧
      (s'.data.isConnected = s.data.isConnected ∧ s'.data.clientSock = s.data.clientSock ∨
        s'.data.isConnected = false ∧ s'.data.clientSock = -1 ∧ s'.data.transferSock = -1) := by
  cases h with
  | answered _ h => cases h; exact ⟨rfl, rfl, Or.inl ⟨rfl, rfl⟩⟩
  | rejected _ h hd => cases h; cases hd; exact ⟨rfl, rfl, Or.inr ⟨rfl, rfl, rfl⟩⟩
  | moved h =>
    cases h with
    | stayed => exact ⟨rfl, rfl, Or.inl ⟨rfl, rfl⟩⟩
    | moved _ _ hd => cases hd <;> exact ⟨rfl, rfl, Or.inl ⟨rfl, rfl⟩⟩
  | sized h => cases h <;> exact ⟨rfl, rfl, Or.inl ⟨rfl, rfl⟩⟩
  | passive h => cases h; exact ⟨rfl, rfl, Or.inl ⟨rfl, rfl⟩⟩
  | listed _ h => cases h; exact ⟨rfl, rfl, Or.inl ⟨rfl, rfl⟩⟩
  | sent _ h => cases h; exact ⟨rfl, rfl, Or.inl ⟨rfl, rfl⟩⟩

/-- A handler retires the transfer client, or it opens and closes nothing. -/
theorem Outcome.transferClient {args : List Byte} {len : ℕ} {c : Command} {r : Int}
    (h : Outcome os s args len c r s') : s'.data.transferClientSock = -1 ∨
      s'.data.transferClientSock = s.data.transferClientSock ∧
        ∃ N, Neutral N ∧ s'.log = N ++ s.log := by
  have hanswered : ∀ {r : Int} {s' : St}, Answered s r s' → s'.data.transferClientSock =
      s.data.transferClientSock ∧ ∃ N, Neutral N ∧ s'.log = N ++ s.log := by
    intro r s' h
    cases h with
    | mk hL => exact ⟨rfl, _, hL.neutral.write, rfl⟩
  cases h with
  | answered _ h => exact Or.inr (hanswered h)
  | rejected _ _ hd => cases hd; exact Or.inl rfl
  | moved h =>
    cases h with
    | stayed hL => exact Or.inr ⟨rfl, _, hL.neutral.write, rfl⟩
    | @moved p r d' L text w hp ha hd ht =>
      have hL : Lookups (L ++ [.realpath p (some r)]) := hd.lookups.append (.cons rfl .nil)
      refine Or.inr ⟨?_, _, hL.neutral.write, congrArg (_ :: ·) (List.append_cons L _ s.log)⟩
      cases hd <;> rfl
  | sized h => exact Or.inr (hanswered h.answered)
  | passive h => cases h; exact Or.inl rfl
  | listed _ h => cases h; exact Or.inl rfl
  | sent _ h => cases h; exact Or.inl rfl

/-! ### The invariant -/

/-- **The invariant of the loop of `main`.**  The server's socket is held while it
listens, the client's while one is connected, and neither is the one of a
transfer.  The transfer client is absent between two calls, or its field still
has the zero it was loaded with. -/
structure Sound (os : Os) (s : St) : Prop where
  configured : Configured s.data
  down : s.data.isServerSocketCreated = false → s.data.isConnected = false
  server : s.data.isServerSocketCreated = true → Spared s.data.serverSock s
  waiting : s.data.isServerSocketCreated = true → s.data.isConnected = false →
    s.data.clientSock = -1 ∧ s.data.transferSock = -1
  client : s.data.isConnected = true →
    Spared s.data.clientSock s ∧ s.data.clientSock ≠ s.data.serverSock
  transferClient : s.data.transferClientSock = -1 ∨
    s.data.transferClientSock = 0 ∧ 0 ∈ openFds os.inherited s.log

namespace Sound

theorem created (h : Sound os s) (hc : s.data.isConnected = true) :
    s.data.isServerSocketCreated = true := by
  by_contra hn
  have := h.down (by simpa using hn)
  simp [hc] at this

theorem of_neutral {N : List Event} (h : Sound os s) (hN : Neutral N) :
    Sound os ⟨s.data, N ++ s.log⟩ := by
  refine ⟨h.configured, h.down, fun hc => (h.server hc).of_neutral hN, h.waiting,
    fun hc => ⟨(h.client hc).1.of_neutral hN, (h.client hc).2⟩, ?_⟩
  rw [openFds_append_of_neutral hN]
  exact h.transferClient

/-- A server that is stopped. -/
theorem stops (h : Configured s.data) (hs : Stops s s') : Sound os s' := by
  have hconf := h.of_config hs.config
  cases hs with
  | mk => exact ⟨hconf, fun _ => rfl, fun h => absurd h Bool.false_ne_true,
      fun h => absurd h Bool.false_ne_true,
      fun h => absurd h Bool.false_ne_true, Or.inl rfl⟩

/-- The client is disconnected. -/
theorem disconnects (h : Sound os s) (hc : s.data.isConnected = true) (hd : Disconnects s s') :
    Sound os s' := by
  have hserver := (h.server (h.created hc)).disconnects (h.client hc).2.symm hd
  cases hd with
  | mk =>
    exact ⟨h.configured.of_config rfl, fun _ => rfl, fun _ => hserver, fun _ _ => ⟨rfl, rfl⟩,
      fun h => absurd h Bool.false_ne_true, Or.inl rfl⟩

/-- **A handler keeps the invariant.** -/
theorem outcome {args : List Byte} {len : ℕ} {c : Command} {r : Int} (h : Sound os s)
    (hc : s.data.isConnected = true) (ho : Outcome os s args len c r s') : Sound os s' := by
  obtain ⟨hcreated, hserver, hsession⟩ := ho.session
  obtain ⟨hclient, hne⟩ := h.client hc
  have hs := h.server (h.created hc)
  refine ⟨h.configured.of_config ho.config, ?_, ?_, ?_, ?_, ?_⟩
  · intro hn
    rw [hcreated, h.created hc] at hn
    exact absurd hn (by decide)
  · intro _
    rw [hserver]
    exact hs.outcome ho (Or.inr hne.symm)
  · intro _ hn
    rcases hsession with ⟨hc', -⟩ | ⟨-, h1, h2⟩
    · simp [hc', hc] at hn
    · exact ⟨h1, h2⟩
  · intro hc'
    rcases hsession with ⟨-, h1⟩ | ⟨h1, -⟩
    · rw [h1, hserver]
      exact ⟨hclient.outcome ho (Or.inl hc'), hne⟩
    · simp [hc'] at h1
  · rcases ho.transferClient with h1 | ⟨h1, N, hN, h2⟩
    · exact Or.inl h1
    · rw [h1, h2, openFds_append_of_neutral hN]
      exact h.transferClient

/-- The transfer sockets are closed. -/
theorem retires {X Y : List Event} (h : Sound os s) (hX : Closes s.data.transferClientSock X)
    (hY : Closes s.data.transferSock Y) : Sound os ⟨s.data.retired, Y ++ (X ++ s.log)⟩ := by
  have hspared : ∀ {z : Int}, Spared z s → Spared z ⟨s.data.retired, Y ++ (X ++ s.log)⟩ :=
    fun hz => .of_absent (hz.retired hX hY) rfl rfl
  exact ⟨h.configured.of_config rfl, h.down, fun hc => hspared (h.server hc),
    fun hc hn => ⟨(h.waiting hc hn).1, rfl⟩,
    fun hc => ⟨hspared (h.client hc).1, (h.client hc).2⟩, Or.inl rfl⟩

theorem handled {r : Int} (h : Sound os s) (hh : Handled s r s') : Sound os s' := by
  have hresult : Sound os ⟨s.data, .result r :: s.log⟩ :=
    h.of_neutral (N := [.result r]) (.cons .nil ⟨rfl, rfl⟩)
  cases hh with
  | kept => exact hresult
  | retired _ hX hY => exact hresult.retires hX hY

/-- The records of reading from the client open and close nothing. -/
theorem examined_neutral (sock : Int) (answer : Option (List Byte)) :
    Neutral (examined sock answer) := by
  intro e he
  rcases mem_examined he with rfl | ⟨i, rfl, -⟩ <;> exact ⟨rfl, rfl⟩

theorem examined (h : Sound os s) (answer : Option (List Byte)) :
    Sound os ⟨s.data, examinedLog s.data.clientSock answer s.log⟩ :=
  h.of_neutral (examined_neutral _ _)

theorem lineState (h : Sound os s) (bytes : List Byte) : Sound os (lineState s bytes) :=
  (h.examined (some bytes)).of_neutral (N := [_]) (.cons .nil ⟨rfl, rfl⟩)

theorem calledState (h : Sound os s) (buffer : List Byte) (len : ℕ) (name : List Byte)
    (c : Command) : Sound os (calledState s buffer len name c) :=
  h.of_neutral (N := [_, _]) (.cons (.cons .nil ⟨rfl, rfl⟩) ⟨rfl, rfl⟩)

theorem parsing {buffer : List Byte} {len : ℕ} {r : Int} (h : Sound os s)
    (hc : s.data.isConnected = true) (hp : Parsing os s buffer len r s') : Sound os s' := by
  cases hp with
  | known _ ho => exact (h.calledState _ _ _ _).outcome hc ho
  | unknown => exact h.of_neutral (N := [_, _]) (Neutral.write (.cons .nil ⟨rfl, rfl⟩))

theorem conversing {r : Int} (h : Sound os s) (hc : s.data.isConnected = true)
    (hs : Conversing os s r s') : Sound os s' := by
  cases hs with
  | line _ _ hp hh => exact ((h.lineState _).parsing hc hp).handled hh
  | closed _ hd =>
    have hstored : Sound os ⟨s.data, storedLog s.data.clientSock (some []) s.log⟩ :=
      h.of_neutral (N := [_, _]) (.cons (.cons .nil ⟨rfl, rfl⟩) ⟨rfl, rfl⟩)
    exact hstored.disconnects hc hd
  | ignored => exact h.examined _
  | stopped _ _ _ _ hst => exact stops (h.examined _).configured hst

/-- A descriptor that is new is not the one of the transfer client. -/
theorem ne_transferClient {fd : Int} (h : Sound os s) (h0 : 0 ≤ fd)
    (hfd : fd ∉ openFds os.inherited s.log) : fd ≠ s.data.transferClientSock := by
  rintro rfl
  rcases h.transferClient with h1 | ⟨h1, h2⟩
  · omega
  · rw [h1] at hfd
    exact hfd h2

/-- The server has started. -/
theorem starting (h : Sound os s) (hn : s.data.isServerSocketCreated = false)
    (hs : Starting os s 0 s') : Sound os s' := by
  generalize h0 : (0 : Int) = r at hs
  cases hs with
  | failed _ hr => exact absurd h0.symm hr
  | uncreated _ _ hr => exact absurd h0.symm hr
  | @started d L C hd hC =>
    have hN := hd.lookups.neutral
    have hconf := h.configured.of_config (hd.config.trans rfl)
    have hfresh := os.socket_fresh (L ++ s.log)
    obtain ⟨cwd, cwdLen, rfl⟩ := hd.exists_eq
    generalize hfd : os.socket (L ++ s.log) = fd at hC hfresh ⊢
    cases hC with
    | failed hr => exact absurd rfl hr
    | created hne =>
      obtain ⟨hpos, hnew⟩ := hfresh.resolve_left hne
      rw [openFds_append_of_neutral hN] at hnew
      have htc := h.ne_transferClient hpos hnew
      have hheld : fd ∈ held ([.listen fd 0, .bind fd s.data.port 0, .setsockopt fd 0,
          .fcntl fd 0, .socket fd] ++ (L ++ s.log)) := by
        simp [mem_held_cons, Event.obtained, Event.released, hpos]
      refine ⟨hconf.of_config rfl, fun h => absurd h Bool.false_ne_true.symm,
        fun _ => ⟨hheld, hne, htc⟩, fun _ _ => ⟨rfl, rfl⟩, fun hc => ?_,
        h.transferClient.imp_right fun h1 => ⟨h1.1, ?_⟩⟩
      · exact absurd ((h.down hn).symm.trans hc) Bool.false_ne_true
      · have h2 := h1.2
        rw [← openFds_append_of_neutral hN] at h2
        simp only [List.cons_append, List.nil_append, mem_openFds_cons]
        simp [Event.released, h2]

/-- The server has waited for a client. -/
theorem waits (h : Sound os s) (hcreated : s.data.isServerSocketCreated = true)
    (hn : s.data.isConnected = false) (hs : Waiting os s 0 s') : Sound os s' := by
  have hserver := h.server hcreated
  have hfresh := os.accept_fresh s.log s.data.serverSock
  generalize h0 : (0 : Int) = r at hs
  cases hs with
  | idle ha =>
    have hneg : os.accept s.log s.data.serverSock = -1 := hfresh.resolve_right (by omega)
    have hN : Neutral [.accept .server s.data.serverSock (os.accept s.log s.data.serverSock)] :=
      .cons .nil ⟨if_pos ha, rfl⟩
    have h1 := h.of_neutral hN
    refine ⟨h1.configured.of_config rfl, h1.down, fun hc => ?_,
      fun hc hn => ⟨hneg, (h1.waiting hc hn).2⟩, fun hc => ?_, h1.transferClient⟩
    · exact ⟨(h1.server hc).1, (h1.server hc).2, (h1.server hc).3⟩
    · exact absurd (hn.symm.trans hc) Bool.false_ne_true
  | stopped _ _ hst =>
    refine stops ?_ hst
    exact h.configured.of_config rfl
  | homeless _ _ hr => exact absurd h0.symm hr
  | ungreeted => exact absurd h0 (by decide)
  | @connected d L w ha hd =>
    have hL := hd.lookups.neutral
    have hconf := h.configured.of_config (hd.config.trans rfl)
    obtain ⟨cwd, cwdLen, rfl⟩ := hd.exists_eq
    obtain ⟨hpos, hnew⟩ := hfresh.resolve_left (by omega)
    -- the new socket is held, and it is none of those there were
    have hgot : os.accept s.log s.data.serverSock ∈ held (acceptedLog os s) := by
      have hopen : ¬ os.accept s.log s.data.serverSock < 0 := by omega
      simp [acceptedLog, mem_held_cons, Event.obtained, hopen]
    have hne : s.data.serverSock ≠ os.accept s.log s.data.serverSock :=
      accept_ne (held_subset_openFds hserver.held) hserver.nonneg
    have hwait := (h.waiting hcreated hn).2
    refine ⟨hconf.of_config rfl, fun hc => absurd (hcreated.symm.trans hc) Bool.false_ne_true.symm,
      fun _ => ⟨mem_held_of_neutral hL.write (mem_held_accept hserver.held), hserver.2, hserver.3⟩,
      fun _ hc => absurd hc Bool.false_ne_true.symm,
      fun _ => ⟨⟨mem_held_of_neutral hL.write hgot, ?_, h.ne_transferClient hpos hnew⟩, hne.symm⟩,
      h.transferClient.imp_right fun h1 => ⟨h1.1, ?_⟩⟩
    · have hneg : os.accept s.log s.data.serverSock ≠ s.data.transferSock := by omega
      exact hneg
    · have hopen : 0 ∈ openFds os.inherited (acceptedLog os s) :=
        mem_openFds_cons.mpr (Or.inr ⟨h1.2, List.not_mem_nil⟩)
      rw [← openFds_append_of_neutral hL.write] at hopen
      exact hopen

/-- **A step that returns zero keeps the invariant.** -/
theorem step (h : Sound os s) (hs : Step os s 0 s') : Sound os s' := by
  cases hs with
  | starting hn hs => exact h.starting hn hs
  | waiting hc hn hs => exact h.waits hc hn hs
  | conversing _ hc hs => exact h.conversing hc hs

theorem started {argv : Argv} (h : Started os argv s) : Sound os s := by
  obtain ⟨hf, hL⟩ := started_spec h
  refine ⟨hf.configured, fun _ => hf.connected, fun hc => ?_, fun hc => ?_, fun hc => ?_, ?_⟩
  · exact absurd (hf.created.symm.trans hc) Bool.false_ne_true
  · exact absurd (hf.created.symm.trans hc) Bool.false_ne_true
  · exact absurd (hf.connected.symm.trans hc) Bool.false_ne_true
  · have hopen := @openFds_append_of_neutral [] _ os.inherited hL.neutral
    rw [List.append_nil] at hopen
    exact Or.inr ⟨hf.transferClient, by rw [hopen]; exact os.zero_inherited⟩

end Sound

/-! ### Runs -/

/-- **The invariant holds in every reachable state.** -/
theorem Reachable.sound {argv : Argv} (h : Reachable os argv s) : Sound os s :=
  h.invariant (fun _ => Sound.started) fun _ _ _ hi ht => hi.step (Step.of_run hi.configured ht)

/-- A call of the handler only adds to the log, even if it does not return. -/
theorem serverHandler_suffix (h : Sound os s) : s.log <:+ (serverHandler os s).2.log := by
  rcases hrun : serverHandler os s with ⟨_ | r, s'⟩
  · exact (Killing.of_run h.configured hrun).adds.suffix
  · exact (Step.of_run h.configured hrun).suffix

/-- A turn between reachable states is a step. -/
theorem Reachable.step {argv : Argv} (h : Reachable os argv s) (ht : Turn os s s') :
    Step os s 0 s' := Step.of_run h.sound.configured ht

/-- **The address is the one of the command line.** -/
theorem Reachable.located {argv : Argv} (h : Reachable os argv s) : Located argv.ipAddr s.data := by
  refine h.invariant (fun _ => started_located) fun s s' hr hi ht => ⟨hi.valid, ?_⟩
  have hconfig : s'.data.ipAddr = s.data.ipAddr :=
    congrArg (fun c => c.2.2.2.1) (Reachable.step hr ht).config
  exact hconfig.trans hi.stored

/-! ### The working directory -/

/-- The working directory is a canonical path that fits its array, stored with its
length. -/
structure Homed (d : ServerData) : Prop where
  canonical : Path.Canonical (47 : Byte) d.cwd
  noNul : NoNul d.cwd
  length_eq : d.cwdLen = d.cwd.length
  length_lt : d.cwd.length < pathLenMax

namespace Homed

theorem entering {log : Log} {dir : List Byte} {d d' : ServerData} {L : List Event}
    (h : Entering os log dir d 0 d' L) : Homed d' := by
  generalize h0 : (0 : Int) = r at h
  cases h with
  | failed hr => exact absurd h0.symm hr
  | entered he =>
    obtain ⟨ha, hlen, -⟩ := he
    obtain ⟨hr, hn⟩ := os.realpath_canonical ha
    exact ⟨hr, hn, rfl, hlen⟩

/-- All handlers but the one of `CWD` leave the working directory alone. -/
theorem outcome {args : List Byte} {len : ℕ} {c : Command} {r : Int} (h : Homed s.data)
    (ho : Outcome os s args len c r s') : Homed s'.data := by
  cases ho with
  | answered _ h' => cases h'; exact ⟨h.1, h.2, h.3, h.4⟩
  | rejected _ h' hd => cases h'; cases hd; exact ⟨h.1, h.2, h.3, h.4⟩
  | moved h' =>
    cases h' with
    | stayed => exact h
    | moved _ _ hd => exact entering hd
  | sized h' => cases h' <;> exact h
  | passive h' => cases h'; exact ⟨h.1, h.2, h.3, h.4⟩
  | listed _ h' => cases h'; exact ⟨h.1, h.2, h.3, h.4⟩
  | sent _ h' => cases h'; exact ⟨h.1, h.2, h.3, h.4⟩

theorem handled {r : Int} (h : Homed s.data) (hh : Handled s r s') : Homed s'.data := by
  cases hh with
  | kept => exact h
  | retired => exact ⟨h.1, h.2, h.3, h.4⟩

/-- **While a client is connected there is a working directory.** -/
theorem step (h : s.data.isConnected = true → Homed s.data)
    (hdown : s.data.isServerSocketCreated = false → s.data.isConnected = false)
    (hs : Step os s 0 s') : s'.data.isConnected = true → Homed s'.data := by
  have hnot : ∀ {b : Bool}, b = false → b = true → Homed s'.data := fun h1 h2 =>
    absurd (h1.symm.trans h2) Bool.false_ne_true
  intro hc'
  cases hs with
  | starting hn hs => exact hnot (hs.isConnected.trans (hdown hn)) hc'
  | waiting _ hn hs =>
    generalize h0 : (0 : Int) = r at hs
    cases hs with
    | idle => exact hnot hn hc'
    | stopped _ _ hst => cases hst; exact hnot rfl hc'
    | homeless _ _ hr => exact absurd h0.symm hr
    | ungreeted => exact absurd h0 (by decide)
    | connected _ hd =>
      have hd := entering hd
      exact ⟨hd.1, hd.2, hd.3, hd.4⟩
  | conversing _ hc hs =>
    have h := h hc
    generalize (0 : Int) = r at hs
    cases hs with
    | line _ _ hp hh =>
      refine handled ?_ hh
      cases hp with
      | known _ ho => exact outcome (s := VsFtp.calledState (VsFtp.lineState s _) _ _ _ _) h ho
      | unknown => exact h
    | closed _ hd => cases hd; exact hnot rfl hc'
    | ignored => exact h
    | stopped _ _ _ _ hst => cases hst; exact hnot rfl hc'

end Homed

theorem Reachable.homed {argv : Argv} (h : Reachable os argv s)
    (hc : s.data.isConnected = true) : Homed s.data := by
  refine h.invariant (I := fun s => s.data.isConnected = true → Homed s.data) ?_ ?_ hc
  · intro s h0 hc
    exact absurd ((started_spec h0).1.connected.symm.trans hc) Bool.false_ne_true
  · exact fun _ _ hr hi ht => Homed.step hi (Reachable.sound hr).down (Reachable.step hr ht)

end VsFtp
