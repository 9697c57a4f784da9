import VsFtp.Host
import VsFtp.Invariants

/-!
# No socket is leaked

Every socket the server holds is in a field of its record, except that the close
routines forget a socket whose `shutdown` fails.

## Main definitions

* `Owned` — every socket that is held is in a field of the record.

## Main results

* `Owned.step` — a step that loses no socket leaks none.
* `no_socket_leaked` — **without a failing `shutdown` no socket is leaked.**
* `reset_leaks_client` — a run in which the client's socket is leaked.
-/

namespace VsFtp

open CString Prog

variable {os : Os} {s s' : St} {argv : Argv}

/-! ### What is held after a step -/

section Held

variable {x fd : Int} {log : Log} {X : List Event} {r : Int}

/-- A socket that is still held was held before and is not the one that was closed,
unless that was lost. -/
theorem Closes.mem_held_and_ne (h : Closes fd X) (hn : NoLoss (X ++ log))
    (hx : x ∈ held (X ++ log)) : x ∈ held log ∧ x ≠ fd := by
  refine ⟨h.held_subset hx, ?_⟩
  rintro rfl
  exact h.not_held hn hx

theorem Shuts.mem_held_and_ne (h : Shuts fd X) (hx : x ∈ held (X ++ log)) :
    x ∈ held log ∧ x ≠ fd := by
  cases h with
  | absent h => exact ⟨hx, h ▸ ne_neg_of_mem_held hx⟩
  | closed => simpa [mem_held_cons, Event.obtained, Event.released] using hx

/-- What is held behind a created socket was held before, or is that socket. -/
theorem Creates.mem_held_or {port : UInt16} (h : Creates port r fd X) (hx : x ∈ held (X ++ log)) :
    x ∈ held log ∨ x = fd ∧ r = 0 := by
  have hsocket : x ∈ held (.socket fd :: log) → x ∈ held log ∨ x = fd := by
    intro hx
    rcases mem_held_cons.mp hx with h | ⟨h, -⟩
    · simp only [Event.obtained] at h
      split at h
      · exact absurd h List.not_mem_nil
      · exact Or.inr (List.mem_singleton.mp h)
    · exact Or.inl h
  cases h with
  | @failed _ _ _ _ N _ hN =>
    -- the socket is closed again
    have hneutral : Neutral N := fun e he => Event.isNeutral_of_isSetup (hN e he)
    simp only [List.cons_append, mem_held_cons, Event.obtained, Event.released, List.append_assoc,
      List.not_mem_nil, List.mem_singleton, false_or, not_false_eq_true, and_true] at hx
    rw [held_append_of_neutral hneutral] at hx
    exact (hsocket hx.1).imp_right fun h => absurd h hx.2
  | created =>
    refine (hsocket ?_).imp_right fun h => ⟨h, rfl⟩
    simpa [mem_held_cons, Event.obtained, Event.released] using hx

/-- What is held behind a transfer was held before, or is the transfer client. -/
theorem Transferring.mem_held_or {B : Int → Log → Int → List Event → Prop} {d : ServerData}
    {r0 a : Int} (hB : ∀ {x log r D}, B x log r D → Sparing log D)
    (h : Transferring B d a log r0 r fd X) (hx : x ∈ held (X ++ log)) : x ∈ held log ∨ x = fd := by
  have haccept : x ∈ held (.accept .transferClient d.transferSock a :: log) →
      x ∈ held log ∨ 0 ≤ a ∧ x = a := by
    intro hx
    rcases mem_held_cons.mp hx with h | ⟨h, -⟩
    · simp only [Event.obtained] at h
      split at h
      · exact absurd h List.not_mem_nil
      · exact Or.inr ⟨by omega, List.mem_singleton.mp h⟩
    · exact Or.inl h
  cases h with
  | skipped => exact Or.inl hx
  | unconnected hA =>
    generalize hr : (-1 : Int) = r at hA
    cases hA with
    | absent => exact Or.inl hx
    | refused _ ha => exact (haccept hx).imp_right fun h => absurd h.1 (by omega)
    | accepted => exact absurd hr (by decide)
  | unannounced _ _ hP =>
    rw [List.append_assoc, held_append_of_neutral hP.neutral] at hx
    exact (haccept hx).imp_right fun h => h.2
  | transferred _ _ hP hD =>
    rw [List.append_assoc, List.append_assoc] at hx
    have hx := (hB hD).mem_held_iff.mp hx
    rw [held_append_of_neutral hP.neutral] at hx
    exact (haccept hx).imp_right fun h => h.2

end Held

/-! ### No socket is leaked -/

/-- Every socket that is held is in a field of a server that listens. -/
def Owned (s : St) : Prop := ∀ fd ∈ held s.log, s.data.isServerSocketCreated = true ∧
  (fd = s.data.serverSock ∨ fd = s.data.clientSock ∨ fd = s.data.transferSock)

namespace Owned

theorem of_neutral {N : List Event} (h : Owned s) (hN : Neutral N) :
    Owned ⟨s.data, N ++ s.log⟩ := by
  intro fd hfd
  rw [held_append_of_neutral hN] at hfd
  exact h fd hfd

theorem retires {X Y : List Event} (h : Owned s) (hX : Closes s.data.transferClientSock X)
    (hY : Closes s.data.transferSock Y) (hn : NoLoss (Y ++ (X ++ s.log))) :
    Owned ⟨s.data.retired, Y ++ (X ++ s.log)⟩ := by
  intro fd hfd
  obtain ⟨h1, hne⟩ := hY.mem_held_and_ne hn hfd
  obtain ⟨hc, h2⟩ := h fd (hX.held_subset h1)
  exact ⟨hc, h2.imp_right fun h => h.imp_right fun h => absurd h hne⟩

theorem disconnects (h : Owned s) (hd : Disconnects s s') (hn : NoLoss s'.log) : Owned s' := by
  cases hd with
  | mk hX hY hZ =>
    intro fd hfd
    obtain ⟨h1, hne⟩ := hZ.mem_held_and_ne hn hfd
    have hmark : Owned ⟨s.data, .disconnect :: s.log⟩ :=
      h.of_neutral (N := [.disconnect]) (.cons .nil ⟨rfl, rfl⟩)
    obtain ⟨hc, h2⟩ := hmark.retires hX hY hn.of_append fd h1
    exact ⟨hc, h2.imp_right fun h => h.imp_left fun h => absurd h hne⟩

/-- A server that is stopped holds nothing. -/
theorem stops (h : Owned s) (hst : Stops s s') (hn : NoLoss s'.log) : Owned s' := by
  cases hst with
  | mk hX hY hZ hW =>
    intro fd hfd
    obtain ⟨h1, hne1⟩ := hW.mem_held_and_ne hfd
    have hn1 := hn.of_append
    obtain ⟨h2, hne2⟩ := hZ.mem_held_and_ne hn1 h1
    have hmark : Owned ⟨s.data, .stopped :: s.log⟩ :=
      h.of_neutral (N := [.stopped]) (.cons .nil ⟨rfl, rfl⟩)
    obtain ⟨-, h3 | h3 | h3⟩ := hmark.retires hX hY hn1.of_append fd h2
    · exact absurd h3 hne1
    · exact absurd h3 hne2
    · exact absurd h3 (ne_neg_of_mem_held hfd)

theorem transferred {B : Int → Log → Int → List Event → Prop} {r0 r : Int}
    (hB : ∀ {x log r D}, B x log r D → Sparing log D) (h : Owned s)
    (ht : Transferred os B r0 s r s') (hn : NoLoss s'.log) : Owned s' := by
  cases ht with
  | mk hT hX hY =>
    intro fd hfd
    rw [held_write] at hfd
    obtain ⟨h1, hne1⟩ := hY.mem_held_and_ne hn.2 hfd
    obtain ⟨h2, hne2⟩ := hX.mem_held_and_ne hn.2.of_append h1
    rcases hT.mem_held_or hB h2 with h3 | h3
    · obtain ⟨hc, h4⟩ := h fd h3
      exact ⟨hc, h4.imp_right fun h => h.imp_right fun h => absurd h hne1⟩
    · exact absurd h3 hne2

theorem passive {r : Int} (h : Owned s) (hc : s.data.isServerSocketCreated = true)
    (hp : Passive os s r s') (hn : NoLoss s'.log) : Owned s' := by
  cases hp with
  | mk hX hY hC =>
    intro fd hfd
    rw [held_write] at hfd
    rcases hC.mem_held_or hfd with h1 | ⟨h1, -⟩
    · obtain ⟨-, h2⟩ := h.retires hX hY hn.2.of_append fd h1
      refine ⟨hc, h2.imp_right fun h => h.imp_right fun h => ?_⟩
      exact absurd h (ne_neg_of_mem_held h1)
    · exact ⟨hc, Or.inr (Or.inr h1)⟩

/-- **A handler that loses no socket leaks none.** -/
theorem outcome {args : List Byte} {len : ℕ} {c : Command} {r : Int} (h : Owned s)
    (hc : s.data.isServerSocketCreated = true) (ho : Outcome os s args len c r s')
    (hn : NoLoss s'.log) : Owned s' := by
  have hanswered : ∀ {r : Int} {s' : St}, Answered s r s' → Owned s' := by
    intro r s' h'
    cases h' with
    | mk hL => exact h.of_neutral hL.neutral.write
  cases ho with
  | answered _ h' => exact hanswered h'
  | rejected _ h' hd => exact (hanswered h').disconnects hd hn
  | moved h' =>
    cases h' with
    | stayed hL => exact h.of_neutral hL.neutral.write
    | @moved p r d' L text w hp ha hd ht =>
      have hL : Lookups (L ++ [.realpath p (some r)]) := hd.lookups.append (.cons rfl .nil)
      have hN : Neutral
          (.write .client s.data.clientSock text w :: (L ++ [.realpath p (some r)])) :=
        hL.neutral.write
      have h1 := h.of_neutral hN
      obtain ⟨cwd, cwdLen, rfl⟩ := hd.exists_eq
      rw [List.append_cons]
      exact h1
  | sized h' => exact hanswered h'.answered
  | passive h' => exact h.passive hc h' hn
  | listed hL h' => exact (h.of_neutral hL.lookups.neutral).transferred listing_sparing h' hn
  | sent hL h' => exact (h.of_neutral hL.lookups.neutral).transferred Sends.sparing h' hn

theorem handled {r : Int} (h : Owned s) (hh : Handled s r s') (hn : NoLoss s'.log) :
    Owned s' := by
  have hresult : Owned ⟨s.data, .result r :: s.log⟩ :=
    h.of_neutral (N := [.result r]) (.cons .nil ⟨rfl, rfl⟩)
  cases hh with
  | kept => exact hresult
  | retired _ hX hY => exact hresult.retires hX hY hn

theorem conversing {r : Int} (h : Owned s) (hc : s.data.isServerSocketCreated = true)
    (hs : Conversing os s r s') (hn : NoLoss s'.log) : Owned s' := by
  have hexamined : ∀ answer, Owned ⟨s.data, examinedLog s.data.clientSock answer s.log⟩ :=
    fun answer => h.of_neutral (Sound.examined_neutral _ _)
  cases hs with
  | @line bytes r s2 _ _ _ hp hh =>
    have hn2 : NoLoss s2.log := by
      cases hh with
      | kept => exact hn.2
      | retired => exact hn.of_append.of_append.2
    have hline : Owned (lineState s bytes) :=
      (hexamined (some bytes)).of_neutral (N := [_]) (.cons .nil ⟨rfl, rfl⟩)
    refine Owned.handled ?_ hh hn
    cases hp with
    | @known name c _ _ _ ho =>
      have hcalled : Owned (calledState (lineState s bytes) (lineBuffer bytes) (bytes.length - 2)
          name c) :=
        hline.of_neutral (N := [_, _]) (.cons (.cons .nil ⟨rfl, rfl⟩) ⟨rfl, rfl⟩)
      exact hcalled.outcome hc ho hn2
    | unknown => exact hline.of_neutral (N := [_, _]) (Neutral.write (.cons .nil ⟨rfl, rfl⟩))
  | closed _ hd =>
    have hstored : Owned ⟨s.data, storedLog s.data.clientSock (some []) s.log⟩ :=
      h.of_neutral (N := [_, _]) (.cons (.cons .nil ⟨rfl, rfl⟩) ⟨rfl, rfl⟩)
    exact hstored.disconnects hd hn
  | ignored => exact hexamined _
  | stopped _ _ _ _ hst => exact (hexamined _).stops hst hn

theorem waits (h : Owned s) (hi : Sound os s) (hc : s.data.isServerSocketCreated = true)
    (hn : s.data.isConnected = false) (hs : Waiting os s 0 s') (hloss : NoLoss s'.log) :
    Owned s' := by
  -- there is no client yet, so its field can be overwritten
  have hclient := (hi.waiting hc hn).1
  have haccepted : ∀ fd ∈ held (acceptedLog os s), fd = s.data.serverSock ∨
      fd = os.accept s.log s.data.serverSock ∨ fd = s.data.transferSock := by
    intro fd hfd
    rcases mem_held_cons.mp hfd with h1 | ⟨h1, -⟩
    · simp only [Event.obtained] at h1
      split at h1
      · exact absurd h1 List.not_mem_nil
      · exact Or.inr (Or.inl (List.mem_singleton.mp h1))
    · obtain ⟨-, h2 | h2 | h2⟩ := h fd h1
      · exact Or.inl h2
      · exact absurd (h2.trans hclient) (ne_neg_of_mem_held h1)
      · exact Or.inr (Or.inr h2)
  have hstate : Owned ⟨acceptedData os s, acceptedLog os s⟩ := fun fd hfd =>
    ⟨hc, haccepted fd hfd⟩
  generalize h0 : (0 : Int) = r at hs
  cases hs with
  | idle => exact hstate
  | stopped _ _ hst => exact hstate.stops hst hloss
  | homeless _ _ hr => exact absurd h0.symm hr
  | ungreeted => exact absurd h0 (by decide)
  | @connected d L w _ hd =>
    have hN : Neutral (.write .client d.clientSock greeting w :: L) := hd.lookups.neutral.write
    have h1 := hstate.of_neutral hN
    obtain ⟨cwd, cwdLen, rfl⟩ := hd.exists_eq
    exact h1

/-- **A step that loses no socket leaks none.** -/
theorem step (h : Owned s) (hi : Sound os s) (hs : Step os s 0 s') (hn : NoLoss s'.log) :
    Owned s' := by
  cases hs with
  | starting hc hs =>
    generalize h0 : (0 : Int) = r at hs
    cases hs with
    | failed _ hr => exact absurd h0.symm hr
    | uncreated _ _ hr => exact absurd h0.symm hr
    | started hd hC =>
      intro fd hfd
      rcases hC.mem_held_or hfd with h1 | ⟨h1, -⟩
      · rw [held_append_of_neutral hd.lookups.neutral] at h1
        exact absurd ((h fd h1).1.symm.trans hc) Bool.false_ne_true.symm
      · exact ⟨rfl, Or.inl h1⟩
  | waiting hc hcon hs => exact h.waits hi hc hcon hs hn
  | conversing hc _ hs => exact h.conversing hc hs hn

end Owned

/-- **Without a failing `shutdown` no socket is leaked**: in every run in which no
socket that the server holds is given up because `shutdown` fails on it, every
socket that the server holds between two turns is in one of its four fields. -/
theorem no_socket_leaked (h : Reachable os argv s) (hn : NoLoss s.log) : ∀ fd ∈ held s.log,
    fd = s.data.serverSock ∨ fd = s.data.clientSock ∨ fd = s.data.transferSock ∨
      fd = s.data.transferClientSock := by
  have hinv : Sound os s ∧ (NoLoss s.log → Owned s) := by
    refine h.invariant (I := fun s => Sound os s ∧ (NoLoss s.log → Owned s)) ?_ ?_
    · intro s h0
      refine ⟨Sound.started h0, fun _ fd hfd => ?_⟩
      have hL := (started_spec h0).2
      rw [← List.append_nil s.log, held_append_of_neutral hL.neutral] at hfd
      exact absurd hfd List.not_mem_nil
    · rintro s s' hr ⟨hi, ho⟩ ht
      have hs := Step.of_run hi.configured ht
      refine ⟨hi.step hs, fun hn => ?_⟩
      exact (ho (hn.of_suffix hs.suffix)).step hi hs hn
  intro fd hfd
  obtain ⟨-, h1 | h1 | h1⟩ := hinv.2 hn fd hfd
  · exact Or.inl h1
  · exact Or.inr (Or.inl h1)
  · exact Or.inr (Or.inr (Or.inl h1))

/-- A client connects and hangs up. -/
theorem no_socket_leaked_hangup :
    let s := Host.run Host.plain.os 3 (Host.start Host.plain.os Host.argv)
    ∀ fd ∈ held s.log, fd = s.data.serverSock ∨ fd = s.data.clientSock ∨
      fd = s.data.transferSock ∨ fd = s.data.transferClientSock :=
  no_socket_leaked (Host.reachable_run (by decide +kernel)) (by decide +kernel)

/-- A machine on which `shutdown` fails, as it does when the client has reset the
connection. -/
def resetHost : Host := { nodes := [Host.srv], shutdown := fun _ => -1 }

/-- **A client that resets its connection is leaked**: its socket was never closed,
and it is in no field of the record. -/
theorem reset_leaks_client :
    let s := Host.run resetHost.os 3 (Host.start resetHost.os Host.argv)
    Reachable resetHost.os Host.argv s ∧ ∃ fd ∈ held s.log, fd ≠ s.data.serverSock ∧
      fd ≠ s.data.clientSock ∧ fd ≠ s.data.transferSock ∧ fd ≠ s.data.transferClientSock := by
  refine ⟨Host.reachable_run (by decide +kernel), 4, ?_⟩
  decide +kernel

end VsFtp
