import VsFtp.Ownership

/-!
# What becomes of every socket

The close routines give a socket up when `shutdown` fails on it, without closing it.  Nothing is
assumed here about `shutdown`: the sockets the server still knows of are kept in a ledger of their
own, and whatever else it holds was lost to such a failure.

## Main definitions

* `kept` — the sockets that were obtained and neither closed nor given up.
* `Lost` — a `shutdown` failed on a socket that was held, and it was not closed since.
* `Filed` — every socket that is kept is in a field of a server that listens.

## Main results

* `mem_kept_or_lost` — what is held is kept or lost.
* `Filed.step` — **a step keeps the invariant, whatever it returns.**
* `held_or_lost` — **every socket that is held is in a field of the record, or it was lost.**
-/

namespace VsFtp

open CString Prog

variable {os : Os} {s s' : St} {argv : Argv}

/-! ### The sockets that are kept -/

/-- The descriptors that are not used any more behind a call: the one that was passed to `close`,
and the one whose `shutdown` failed in a routine that closes the socket only if it succeeds. -/
def Event.forgotten : Event → List Int
  | .shutdown .checked fd r => if r = 0 then [] else [fd]
  | e => e.released

/-- The sockets that were obtained and neither closed nor forgotten. -/
def kept : Log → List Int := Ledger.live Event.obtained Event.forgotten []

/-- A `shutdown` of the socket failed while it was held, and it was not closed since. -/
def Lost (fd : Int) (log : Log) : Prop := ∃ new old r,
  log = new ++ .shutdown .checked fd r :: old ∧ r ≠ 0 ∧ fd ∈ held old ∧ ∀ e ∈ new, fd ∉ e.released

theorem Event.released_subset_forgotten (e : Event) : e.released ⊆ e.forgotten := by
  cases e <;> first | exact List.Subset.refl _ | exact List.nil_subset _

section Kept

variable {x fd : Int} {log : Log} {N X : List Event} {r : Int}

theorem mem_kept_cons {e : Event} :
    x ∈ kept (e :: log) ↔ x ∈ e.obtained ∨ x ∈ kept log ∧ x ∉ e.forgotten := Ledger.mem_live_cons

theorem kept_subset_held : kept log ⊆ held log :=
  Ledger.live_antitone Event.released_subset_forgotten

theorem ne_neg_of_mem_kept (h : x ∈ kept log) : x ≠ -1 := ne_neg_of_mem_held (kept_subset_held h)

/-- **What is held is kept or lost.** -/
theorem mem_kept_or_lost (h : fd ∈ held log) : fd ∈ kept log ∨ Lost fd log := by
  by_cases hk : fd ∈ kept log
  · exact Or.inl hk
  obtain ⟨new, e, old, rfl, hold, hd, hnew⟩ := Ledger.exists_drop h hk
  -- the ledgers differ only in the shutdowns that fail
  have he : ∃ r, e = .shutdown .checked fd r ∧ r ≠ 0 := by
    have hrel := hnew e (by simp)
    cases e with
    | shutdown how fd' r =>
      cases how with
      | checked =>
        by_cases hr : r = 0
        · simp [Event.forgotten, hr] at hd
        · obtain rfl : fd = fd' := by simpa [Event.forgotten, hr] using hd
          exact ⟨r, rfl, hr⟩
      | unchecked => exact absurd hd hrel
    | _ => exact absurd hd hrel
  obtain ⟨r, rfl, hr⟩ := he
  exact Or.inr ⟨new, old, r, rfl, hr, hold, fun a ha => hnew a (by simp [ha])⟩

/-- Records that obtain no socket add none to those that are kept. -/
theorem kept_append_subset (hN : ∀ e ∈ N, e.obtained = []) : kept (N ++ log) ⊆ kept log := by
  induction N with
  | nil => exact List.Subset.refl _
  | cons e N ih =>
    intro x hx
    rcases mem_kept_cons.mp hx with h | ⟨h, -⟩
    · rw [hN e (by simp)] at h
      exact absurd h List.not_mem_nil
    · exact ih (fun a ha => hN a (by simp [ha])) h

theorem Neutral.obtained (hN : Neutral N) : ∀ e ∈ N, e.obtained = [] := fun e he =>
  List.subset_nil.mp ((hN e he).1 ▸ e.obtained_subset_opened)

/-- **A socket that is closed is not kept**, whether it is closed or lost. -/
theorem Closes.mem_kept_and_ne (h : Closes fd X) (hx : x ∈ kept (X ++ log)) :
    x ∈ kept log ∧ x ≠ fd := by
  cases h with
  | absent h => exact ⟨hx, h ▸ ne_neg_of_mem_kept hx⟩
  | lost _ hr => simpa [mem_kept_cons, Event.obtained, Event.forgotten, hr] using hx
  | closed =>
    simpa [mem_kept_cons, Event.obtained, Event.forgotten, Event.released] using hx

theorem Shuts.mem_kept_and_ne (h : Shuts fd X) (hx : x ∈ kept (X ++ log)) :
    x ∈ kept log ∧ x ≠ fd := by
  cases h with
  | absent h => exact ⟨hx, h ▸ ne_neg_of_mem_kept hx⟩
  | closed => simpa [mem_kept_cons, Event.obtained, Event.forgotten, Event.released] using hx

/-- What is kept behind a call that answers with a socket. -/
theorem mem_kept_obtained {e : Event} (he : e.obtained = if fd < 0 then [] else [fd])
    (hx : x ∈ kept (e :: log)) : x ∈ kept log ∨ 0 ≤ fd ∧ x = fd := by
  rcases mem_kept_cons.mp hx with h | ⟨h, -⟩
  · rw [he] at h
    split at h
    · exact absurd h List.not_mem_nil
    · exact Or.inr ⟨by omega, List.mem_singleton.mp h⟩
  · exact Or.inl h

/-- What is kept behind a created socket was kept before, or is that socket. -/
theorem Creates.mem_kept_or {port : UInt16} (h : Creates port r fd X) (hx : x ∈ kept (X ++ log)) :
    x ∈ kept log ∨ x = fd ∧ r = 0 := by
  cases h with
  | @failed _ _ _ _ N _ hN =>
    -- the socket is closed again
    have hneutral : Neutral N := fun e he => Event.isNeutral_of_isSetup (hN e he)
    have h1 : x ∈ kept (N ++ .socket fd :: log) ∧ x ≠ fd := by
      simpa [mem_kept_cons, Event.obtained, Event.forgotten, Event.released] using hx
    have h2 := kept_append_subset hneutral.obtained h1.1
    exact (mem_kept_obtained rfl h2).imp_right fun h => absurd h.2 h1.2
  | created =>
    have h1 : x ∈ kept (.socket fd :: log) :=
      kept_append_subset (N := [.listen fd 0, .bind fd port 0, .setsockopt fd 0, .fcntl fd 0])
        (by simp [Event.obtained]) hx
    exact (mem_kept_obtained rfl h1).imp_right fun h => ⟨h.2, rfl⟩

/-- What is kept behind a transfer was kept before, or is the transfer client. -/
theorem Transferring.mem_kept_or {B : Int → Log → Int → List Event → Prop} {d : ServerData}
    {r0 a : Int} (hB : ∀ {x log r D}, B x log r D → Sparing log D)
    (h : Transferring B d a log r0 r fd X) (hx : x ∈ kept (X ++ log)) : x ∈ kept log ∨ x = fd := by
  cases h with
  | skipped => exact Or.inl hx
  | unconnected hA =>
    generalize hr : (-1 : Int) = r at hA
    cases hA with
    | absent => exact Or.inl hx
    | refused _ ha => exact (mem_kept_obtained rfl hx).imp_right fun h => absurd h.1 (by omega)
    | accepted => exact absurd hr (by decide)
  | unannounced _ _ hP =>
    rw [List.append_assoc] at hx
    have h1 := kept_append_subset hP.neutral.obtained hx
    exact (mem_kept_obtained rfl h1).imp_right fun h => h.2
  | transferred _ _ hP hD =>
    rw [List.append_assoc, List.append_assoc] at hx
    have h1 := kept_append_subset (fun e he => (hB hD e he).1) hx
    have h2 := kept_append_subset hP.neutral.obtained h1
    exact (mem_kept_obtained rfl h2).imp_right fun h => h.2

end Kept

/-! ### Where the sockets are that are kept -/

/-- Every socket that is kept is in a field of a server that listens. -/
def Filed (s : St) : Prop := ∀ fd ∈ kept s.log, s.data.isServerSocketCreated = true ∧
  (fd = s.data.serverSock ∨ fd = s.data.clientSock ∨ fd = s.data.transferSock)

namespace Filed

variable {N X Y : List Event} {r : Int}

/-- Records that obtain no socket. -/
theorem append (h : Filed s) (hN : ∀ e ∈ N, e.obtained = []) : Filed ⟨s.data, N ++ s.log⟩ :=
  fun fd hfd => h fd (kept_append_subset hN hfd)

theorem of_neutral (h : Filed s) (hN : Neutral N) : Filed ⟨s.data, N ++ s.log⟩ :=
  h.append hN.obtained

theorem retires (h : Filed s) (hX : Closes s.data.transferClientSock X)
    (hY : Closes s.data.transferSock Y) : Filed ⟨s.data.retired, Y ++ (X ++ s.log)⟩ := by
  intro fd hfd
  obtain ⟨h1, hne⟩ := hY.mem_kept_and_ne hfd
  obtain ⟨hc, h2⟩ := h fd (hX.mem_kept_and_ne h1).1
  exact ⟨hc, h2.imp_right fun h => h.imp_right fun h => absurd h hne⟩

theorem disconnects (h : Filed s) (hd : Disconnects s s') : Filed s' := by
  cases hd with
  | mk hX hY hZ =>
    intro fd hfd
    obtain ⟨h1, hne⟩ := hZ.mem_kept_and_ne hfd
    have hmark : Filed ⟨s.data, .disconnect :: s.log⟩ :=
      h.of_neutral (N := [.disconnect]) (.cons .nil ⟨rfl, rfl⟩)
    obtain ⟨hc, h2⟩ := hmark.retires hX hY fd h1
    exact ⟨hc, h2.imp_right fun h => h.imp_left fun h => absurd h hne⟩

/-- **A server that is stopped keeps no socket.** -/
theorem stops (h : Filed s) (hst : Stops s s') : ∀ fd, fd ∉ kept s'.log := by
  cases hst with
  | mk hX hY hZ hW =>
    intro fd hfd
    obtain ⟨h1, hne1⟩ := hW.mem_kept_and_ne hfd
    obtain ⟨h2, hne2⟩ := hZ.mem_kept_and_ne h1
    have hmark : Filed ⟨s.data, .stopped :: s.log⟩ :=
      h.of_neutral (N := [.stopped]) (.cons .nil ⟨rfl, rfl⟩)
    obtain ⟨-, h3 | h3 | h3⟩ := hmark.retires hX hY fd h2
    · exact hne1 h3
    · exact hne2 h3
    · exact ne_neg_of_mem_kept hfd h3

theorem of_stops (h : Filed s) (hst : Stops s s') : Filed s' :=
  fun fd hfd => absurd hfd (h.stops hst fd)

theorem transferred {B : Int → Log → Int → List Event → Prop} {r0 : Int}
    (hB : ∀ {x log r D}, B x log r D → Sparing log D) (h : Filed s)
    (ht : Transferred os B r0 s r s') : Filed s' := by
  cases ht with
  | mk hT hX hY =>
    intro fd hfd
    have h0 := kept_append_subset (N := [_]) (by simp [Event.obtained]) hfd
    obtain ⟨h1, hne1⟩ := hY.mem_kept_and_ne h0
    obtain ⟨h2, hne2⟩ := hX.mem_kept_and_ne h1
    rcases hT.mem_kept_or hB h2 with h3 | h3
    · obtain ⟨hc, h4⟩ := h fd h3
      exact ⟨hc, h4.imp_right fun h => h.imp_right fun h => absurd h hne1⟩
    · exact absurd h3 hne2

theorem passive (h : Filed s) (hc : s.data.isServerSocketCreated = true)
    (hp : Passive os s r s') : Filed s' := by
  cases hp with
  | mk hX hY hC =>
    intro fd hfd
    have h0 := kept_append_subset (N := [_]) (by simp [Event.obtained]) hfd
    rcases hC.mem_kept_or h0 with h1 | ⟨h1, -⟩
    · obtain ⟨-, h2⟩ := h.retires hX hY fd h1
      refine ⟨hc, h2.imp_right fun h => h.imp_right fun h => ?_⟩
      exact absurd h (ne_neg_of_mem_kept h1)
    · exact ⟨hc, Or.inr (Or.inr h1)⟩

/-- A handler keeps the invariant. -/
theorem outcome {args : List Byte} {len : ℕ} {c : Command} (h : Filed s)
    (hc : s.data.isServerSocketCreated = true) (ho : Outcome os s args len c r s') :
    Filed s' := by
  have hanswered : ∀ {r : Int} {s' : St}, Answered s r s' → Filed s' := by
    intro r s' h'
    cases h' with
    | mk hL => exact h.of_neutral hL.neutral.write
  cases ho with
  | answered _ h' => exact hanswered h'
  | rejected _ h' hd => exact (hanswered h').disconnects hd
  | moved h' =>
    cases h' with
    | stayed hL => exact h.of_neutral hL.neutral.write
    | @moved p r d' L text w hp ha hd ht =>
      have hL : Lookups (L ++ [.realpath p (some r)]) := hd.lookups.append (.cons rfl .nil)
      have hN : Neutral
          (.write .client s.data.clientSock text w :: (L ++ [.realpath p (some r)])) :=
        hL.neutral.write
      have h1 := h.of_neutral hN
      obtain ⟨cwd, cwdLen, rfl⟩ := hd.exists_eq
      rw [List.append_cons]
      exact h1
  | sized h' => exact hanswered h'.answered
  | passive h' => exact h.passive hc h'
  | listed hL h' => exact (h.of_neutral hL.lookups.neutral).transferred listing_sparing h'
  | sent hL h' => exact (h.of_neutral hL.lookups.neutral).transferred Sends.sparing h'

theorem handled (h : Filed s) (hh : Handled s r s') : Filed s' := by
  have hresult : Filed ⟨s.data, .result r :: s.log⟩ :=
    h.of_neutral (N := [.result r]) (.cons .nil ⟨rfl, rfl⟩)
  cases hh with
  | kept => exact hresult
  | retired _ hX hY => exact hresult.retires hX hY

theorem parsing {buffer : List Byte} {len : ℕ} (h : Filed s)
    (hc : s.data.isServerSocketCreated = true) (hp : Parsing os s buffer len r s') : Filed s' := by
  cases hp with
  | @known name c _ _ _ ho =>
    have hcalled : Filed (calledState s buffer len name c) :=
      h.of_neutral (N := [_, _]) (.cons (.cons .nil ⟨rfl, rfl⟩) ⟨rfl, rfl⟩)
    exact hcalled.outcome hc ho
  | unknown => exact h.of_neutral (N := [_, _]) (Neutral.write (.cons .nil ⟨rfl, rfl⟩))

theorem conversing (h : Filed s) (hc : s.data.isServerSocketCreated = true)
    (hs : Conversing os s r s') : Filed s' := by
  have hexamined : ∀ answer, Filed ⟨s.data, examinedLog s.data.clientSock answer s.log⟩ :=
    fun answer => h.of_neutral (Sound.examined_neutral _ _)
  cases hs with
  | @line bytes r s2 _ _ _ hp hh =>
    have hline : Filed (lineState s bytes) :=
      (hexamined (some bytes)).of_neutral (N := [_]) (.cons .nil ⟨rfl, rfl⟩)
    exact (hline.parsing hc hp).handled hh
  | closed _ hd =>
    have hstored : Filed ⟨s.data, storedLog s.data.clientSock (some []) s.log⟩ :=
      h.of_neutral (N := [_, _]) (.cons (.cons .nil ⟨rfl, rfl⟩) ⟨rfl, rfl⟩)
    exact hstored.disconnects hd
  | ignored => exact hexamined _
  | stopped _ _ _ _ hst => exact (hexamined _).of_stops hst

theorem waits (h : Filed s) (hi : Sound os s) (hc : s.data.isServerSocketCreated = true)
    (hn : s.data.isConnected = false) (hs : Waiting os s r s') : Filed s' := by
  -- there is no client yet, so its field can be overwritten
  have hclient := (hi.waiting hc hn).1
  have haccepted : Filed ⟨acceptedData os s, acceptedLog os s⟩ := by
    intro fd hfd
    refine ⟨hc, ?_⟩
    rcases mem_kept_obtained rfl hfd with h1 | ⟨-, h1⟩
    · obtain ⟨-, h2 | h2 | h2⟩ := h fd h1
      · exact Or.inl h2
      · exact absurd (h2.trans hclient) (ne_neg_of_mem_kept h1)
      · exact Or.inr (Or.inr h2)
    · exact Or.inr (Or.inl h1)
  -- entering the root path changes no socket
  have hentered : ∀ {r : Int} {d : ServerData} {L N : List Event},
      Entering os (acceptedLog os s) s.data.rootPath (acceptedData os s) r d L → Neutral N →
      Filed ⟨d, N ++ (L ++ acceptedLog os s)⟩ := by
    intro r d L N hd hN
    have h1 := (haccepted.of_neutral hd.lookups.neutral).of_neutral hN
    obtain ⟨cwd, cwdLen, rfl⟩ := hd.exists_eq
    exact h1
  cases hs with
  | idle => exact haccepted
  | stopped _ _ hst => exact haccepted.of_stops hst
  | homeless _ hd => exact hentered hd .nil
  | ungreeted _ hd => exact hentered hd Neutral.nil.write
  | connected _ hd => exact hentered hd Neutral.nil.write

theorem starts (h : Filed s) (hn : s.data.isServerSocketCreated = false)
    (hs : Starting os s r s') : Filed s' := by
  have hnone : ∀ {L : List Event}, Lookups L → ∀ fd, fd ∉ kept (L ++ s.log) := by
    intro L hL fd hfd
    have h1 := (h fd (kept_append_subset hL.neutral.obtained hfd)).1
    exact absurd (hn.symm.trans h1) Bool.false_ne_true
  intro fd hfd
  cases hs with
  | failed hd => exact absurd hfd (hnone hd.lookups fd)
  | uncreated hd hC hr =>
    rcases hC.mem_kept_or hfd with h1 | ⟨-, h1⟩
    · exact absurd h1 (hnone hd.lookups fd)
    · exact absurd h1 hr
  | started hd hC =>
    rcases hC.mem_kept_or hfd with h1 | ⟨h1, -⟩
    · exact absurd h1 (hnone hd.lookups fd)
    · exact ⟨rfl, Or.inl h1⟩

/-- **A step keeps the invariant**, whatever it returns. -/
theorem step (h : Filed s) (hi : Sound os s) (hs : Step os s r s') : Filed s' := by
  cases hs with
  | starting hn hs => exact h.starts hn hs
  | waiting hc hn hs => exact h.waits hi hc hn hs
  | conversing hc _ hs => exact h.conversing hc hs

theorem started (h : Started os argv s) : Filed s := by
  intro fd hfd
  have h1 : fd ∈ kept [] :=
    kept_append_subset (started_spec h).2.neutral.obtained (by rwa [List.append_nil])
  exact absurd h1 List.not_mem_nil

end Filed

theorem Reachable.filed (h : Reachable os argv s) : Filed s := by
  refine h.invariant (fun _ => Filed.started) ?_
  intro s s' hr hf ht
  exact hf.step (Reachable.sound hr) (Reachable.step hr ht)

/-- **Every socket is accounted for**: behind any number of turns and one more call of the
handler, which may return anything, every socket that is held is in a field of the record, or a
`shutdown` on it failed and it was not closed since. -/
theorem held_or_lost (h : Reachable os argv s) {r : Int} (hr : serverHandler os s = (some r, s')) :
    ∀ fd ∈ held s'.log, (fd = s'.data.serverSock ∨ fd = s'.data.clientSock ∨
      fd = s'.data.transferSock) ∨ Lost fd s'.log := by
  intro fd hfd
  have hsound := Reachable.sound h
  have hfiled := (Reachable.filed h).step hsound (Step.of_run hsound.configured hr)
  exact (mem_kept_or_lost hfd).imp_left fun hk => (hfiled fd hk).2

/-- The client that resets its connection is accounted for when the server has noticed. -/
theorem held_or_lost_reset :
    let s := Host.run resetHost.os 2 (Host.start resetHost.os Host.argv)
    ∀ fd ∈ held (serverHandler resetHost.os s).2.log,
      (fd = (serverHandler resetHost.os s).2.data.serverSock ∨
        fd = (serverHandler resetHost.os s).2.data.clientSock ∨
        fd = (serverHandler resetHost.os s).2.data.transferSock) ∨
      Lost fd (serverHandler resetHost.os s).2.log :=
  held_or_lost (r := 0) (Host.reachable_run (by decide +kernel))
    (Prod.ext (by decide +kernel) rfl)

end VsFtp
