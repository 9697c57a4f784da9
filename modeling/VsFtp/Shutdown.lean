import VsFtp.Losses

/-!
# How the program ends

`main` returns for a bad command line, for a server that could not be initialised, for a turn that
failed, or because it was asked to quit.  In the last two cases it stops the server first.

## Main definitions

* `MainCalls` — the states in which `main` calls the handler.
* `MainStops` — `main` comes to the call of `VSFTPServerStop` behind its loop.
* `Ended` — the ways `main` ends.

## Main results

* `main_ended` — `main` ends in one of these ways.
* `MainStops.stops` — if `main` comes to that call, it ends with the server stopped in the state
  behind the last call of the handler.
* `main_releases` — **whatever made it return, `main` leaves no socket open** but those that were
  lost to a failing `shutdown`.
-/

namespace VsFtp

open CString Prog

attribute [local irreducible] serverSendReply helpText

variable {os : Os} {s s' : St} {quit : Log → Bool}

/-! ### The loop -/

/-- What one iteration of the loop did: the call failed, or it returned zero and the loop is left if
`main` was asked to quit. -/
theorem mainBody_run {out : Int ⊕ Unit} (h : mainBody quit () os s = (some out, s')) :
    (∃ r, serverHandler os s = (some r, s') ∧ r ≠ 0 ∧ out = .inl r) ∨
      Turn os s s' ∧ out = if quit s'.log then .inl 0 else .inr () := by
  unfold mainBody at h
  rw [run_bind] at h
  rcases hrun : serverHandler os s with ⟨_ | r, s₁⟩ <;> rw [hrun] at h
  · exact absurd (Prod.mk.inj h).1 (by simp)
  by_cases hr : r = 0
  · subst hr
    obtain ⟨ho, rfl⟩ := Prod.mk.inj h
    exact Or.inr ⟨hrun, (Option.some.inj ho).symm⟩
  · have h1 : (some (.inl r), s₁) = (some out, s') := by simpa [hr] using h
    obtain ⟨ho, rfl⟩ := Prod.mk.inj h1
    exact Or.inl ⟨r, rfl, hr, (Option.some.inj ho).symm⟩

/-- An iteration in which the process ended ended in the call. -/
theorem mainBody_dies (h : mainBody quit () os s = (none, s')) :
    serverHandler os s = (none, s') := by
  unfold mainBody at h
  rw [run_bind] at h
  rcases hrun : serverHandler os s with ⟨_ | r, s₁⟩ <;> rw [hrun] at h
  · obtain rfl : s₁ = s' := (Prod.mk.inj h).2
    rfl
  by_cases hr : r = 0
  · subst hr
    exact absurd (Prod.mk.inj h).1 (by simp)
  · simp [hr] at h

/-- The loop is left behind a call that failed or saw the request to quit. -/
theorem mainBody_leaves {r : Int} (hrun : serverHandler os s = (some r, s'))
    (hq : r ≠ 0 ∨ quit s'.log = true) : mainBody quit () os s = (some (.inl r), s') := by
  unfold mainBody
  rw [run_bind_of_some hrun]
  by_cases hr : r = 0
  · have hquit : quit s'.log = true := hq.resolve_left (not_not.mpr hr)
    rw [if_neg (not_not.mpr hr), run_bind_of_some (run_peek _ _ _), hquit]
    rfl
  · rw [if_pos hr]
    rfl

/-- **The heads of the loop are the reachable states.** -/
theorem Head.reachable {argv : Argv} {s₀ : St} {k : ℕ} (h0 : Started os argv s₀)
    (h : Head os (fun _ => True) (mainBody quit) () s₀ k () s) : Reachable os argv s := by
  refine h.invariant (I := fun _ _ s => Reachable os argv s) (.start h0) ?_
  intro k v s v' s' hr _ hrun
  rcases mainBody_run hrun with ⟨r, -, -, ho⟩ | ⟨ht, -⟩
  · exact absurd ho (by simp)
  · exact Reach.step hr ht

/-- The states in which `main` calls the handler, with these arguments: the heads of its loop. -/
inductive MainCalls (os : Os) (quit : Log → Bool) (turns : ℕ) : List (List Byte) → St → Prop
  | mk {name : List Byte} {argv : Argv} {s₀ s : St} {k : ℕ} (h0 : Started os argv s₀)
      (hk : k < turns) (h : Head os (fun _ => True) (mainBody quit) () s₀ k () s) :
      MainCalls os quit turns [name, argv.ipAddr, argv.port, argv.rootPath] s

theorem MainCalls.reachable {turns : ℕ} {args : List (List Byte)}
    (h : MainCalls os quit turns args s) : ∃ argv, Reachable os argv s := by
  cases h with
  | mk h0 _ h => exact ⟨_, Head.reachable h0 h⟩

/-- `main` comes to the call of `VSFTPServerStop` behind its loop: a call of the handler has failed,
or `main` sees behind it that it was asked to quit. -/
def MainStops (os : Os) (quit : Log → Bool) (turns : ℕ) (args : List (List Byte)) : Prop :=
  ∃ s r s', MainCalls os quit turns args s ∧ serverHandler os s = (some r, s') ∧
    (r ≠ 0 ∨ quit s'.log = true)

/-! ### The ends -/

/-- What `main` has done before its loop: it has made some lookups, and started nothing. -/
structure Untouched (s : St) : Prop where
  lookups : Lookups s.log
  created : s.data.isServerSocketCreated = false
  connected : s.data.isConnected = false

theorem Untouched.append {L : List Event} (h : Untouched s) (hL : Lookups L) :
    Untouched ⟨s.data, L ++ s.log⟩ := ⟨hL.append h.lookups, h.created, h.connected⟩

/-- How `main` ends.  It returns before its loop, when it has looked up a few paths and nothing
else, or behind a turn, when the server is stopped; else a turn does not return, or `main` has made
all the turns it may. -/
inductive Ended (os : Os) (quit : Log → Bool) (turns : ℕ) :
    List (List Byte) → Option Int → St → Prop
  | refused {args : List (List Byte)} {r : Int} {s' : St} (hr : r ≠ 0) (h : Untouched s') :
      Ended os quit turns args (some r) s'
  | failed {args : List (List Byte)} {s s₁ s' : St} {r : Int} (h : MainCalls os quit turns args s)
      (hrun : serverHandler os s = (some r, s₁)) (hr : r ≠ 0) (hs : Stops s₁ s') :
      Ended os quit turns args (some r) s'
  | quitted {args : List (List Byte)} {s s₁ s' : St} (h : MainCalls os quit turns args s)
      (ht : Turn os s s₁) (hq : quit s₁.log = true) (hs : Stops s₁ s') :
      Ended os quit turns args (some 0) s'
  | killed {args : List (List Byte)} {s s' : St} (h : MainCalls os quit turns args s)
      (hrun : serverHandler os s = (none, s')) : Ended os quit turns args none s'
  | exhausted {name : List Byte} {argv : Argv} {s₀ s' : St} (h0 : Started os argv s₀)
      (h : Head os (fun _ => True) (mainBody quit) () s₀ turns () s') :
      Ended os quit turns [name, argv.ipAddr, argv.port, argv.rootPath] none s'

theorem wp_filesystemIsDir_untouched {path : List Byte} {len : ℕ} {E : St → Prop}
    (h : Untouched s) :
    wp os (filesystemIsDir path len : ServerM Int) (fun _ => Untouched) E s := by
  by_cases hpos : 0 < len
  · refine wp_mono (wp_filesystemHasKind hpos) ?_ fun _ h => h
    rintro _ _ ⟨-, rfl⟩
    exact h.append (L := [_]) (.cons rfl .nil)
  · unfold filesystemIsDir filesystemHasKind
    rw [if_neg hpos]
    exact h

theorem wp_serverInitialize_untouched {rootPath ipAddr : List Byte} {rootPathLen ipAddrLen : ℕ}
    {port : UInt16} {E : St → Prop} (h : Untouched s) :
    wp os (serverInitialize rootPath rootPathLen ipAddr ipAddrLen port)
      (fun _ => Untouched) E s := by
  unfold serverInitialize
  refine wp_ite (fun _ => ?_) fun _ => h
  refine wp_seq (R := fun _ => Untouched)
    ((wp_modifyData _).mpr ⟨h.lookups, h.created, h.connected⟩) fun _ s hs => ?_
  refine wp_seq wp_filesystemGetRealPath ?_
  rintro out s' ⟨L, hres, rfl⟩
  have hL : Lookups L := by
    cases hres with
    | failed hL => exact hL
    | found => exact .cons rfl .nil
  have hs' := hs.append hL
  refine wp_ite (fun _ => ?_) fun _ => hs'
  refine wp_seq (R := fun _ => Untouched) hs' fun realPath s hs => ?_
  refine wp_seq (R := fun _ => Untouched)
    ((wp_modifyData _).mpr ⟨hs.lookups, hs.created, hs.connected⟩) fun _ s hs => ?_
  exact wp_filesystemIsDir_untouched hs

/-- Until the loop nothing but lookups is made, and the server is not started. -/
theorem wp_mainStart_untouched {argv : Argv} :
    wp os (mainStart argv) (fun _ => Untouched) (fun _ => False) St.zero := by
  have h0 : Untouched St.zero := ⟨.nil, rfl, rfl⟩
  unfold mainStart
  refine wp_ite (fun _ => h0) fun _ => wp_ite (fun _ => h0) fun _ => ?_
  refine wp_seq (wp_filesystemIsDir_untouched h0) fun retval s hs => ?_
  exact wp_ite (fun _ => hs) fun _ => wp_serverInitialize_untouched hs

/-- **The loop of `main` is left behind a turn** that failed or saw the request to quit. -/
theorem wp_mainLoop {turns : ℕ} (name : List Byte) {argv : Argv} (h : Started os argv s) :
    wp os (mainLoop quit turns)
      (fun r s' => ∃ s₁, MainCalls os quit turns [name, argv.ipAddr, argv.port, argv.rootPath] s₁ ∧
        serverHandler os s₁ = (some r, s') ∧ (r = 0 → quit s'.log = true))
      (Ended os quit turns [name, argv.ipAddr, argv.port, argv.rootPath] none) s := by
  refine wp_mono (wp_self _) ?_ ?_
  · intro r s' hrun
    obtain ⟨k, _, s₁, hk, hhead, hleaves⟩ := exists_leaves_of_run hrun
    have hs₁ := @MainCalls.mk os quit turns name argv _ _ _ h (hk trivial) hhead
    cases hleaves with
    | ended hc => exact absurd trivial hc
    | left _ hleft =>
      rcases mainBody_run hleft with ⟨r', hrun', hr', ho⟩ | ⟨ht, ho⟩
      · obtain rfl := Sum.inl.inj ho
        exact ⟨s₁, hs₁, hrun', fun h0 => absurd h0 hr'⟩
      · by_cases hq : quit s'.log = true
        · rw [if_pos hq] at ho
          obtain rfl := Sum.inl.inj ho
          exact ⟨s₁, hs₁, ht, fun _ => hq⟩
        · rw [if_neg hq] at ho
          exact absurd ho (by simp)
  · intro s' hrun
    obtain ⟨k, _, s₁, hhead, hend⟩ := exists_dies_of_run hrun
    rcases hend with ⟨rfl, rfl⟩ | ⟨hk, hdies⟩
    · exact .exhausted h hhead
    · exact .killed (.mk h hk hhead) (mainBody_dies hdies)

/-- **`main` ends in one of these ways.** -/
theorem wp_main {turns : ℕ} {args : List (List Byte)} :
    wp os (main quit turns args) (fun r => Ended os quit turns args (some r))
      (Ended os quit turns args none) St.zero := by
  unfold main
  split
  · rename_i name ipAddr port rootPath
    have hstart := wp_and (wp_self (w := os) (s := St.zero) (mainStart ⟨ipAddr, port, rootPath⟩))
      wp_mainStart_untouched
    refine wp_seq (wp_mono hstart (fun _ _ h => h) fun _ h => h.2.elim) ?_
    rintro r s ⟨hrun, hs⟩
    refine wp_ite (fun hr => .refused hr hs) fun hr => ?_
    obtain rfl : r = 0 := not_not.mp hr
    have hstarted : Started os ⟨ipAddr, port, rootPath⟩ s := hrun
    refine wp_seq (wp_mainLoop name hstarted) ?_
    rintro r s₁ ⟨s₂, hs₂, hturn, hq⟩
    -- the status of stopping the server counts only if there is no other
    refine wp_ite (fun hr => ?_) fun hr => ?_
    · subst hr
      refine wp_mono wp_serverStop_zero ?_ fun _ h => h
      rintro _ s' ⟨rfl, hst⟩
      exact .quitted hs₂ hturn (hq rfl) hst
    · refine wp_seq wp_serverStop ?_
      exact fun _ s' hst => .failed hs₂ hturn hr hst
  · exact .refused (by decide) ⟨.nil, rfl, rfl⟩

/-- How `main` ended, from what it returned. -/
theorem main_ended (os : Os) (quit : Log → Bool) (turns : ℕ) (args : List (List Byte)) :
    Ended os quit turns args (main quit turns args os St.zero).1
      (main quit turns args os St.zero).2 := by
  have h := @wp_main os quit turns args
  unfold wp at h
  rcases hrun : main quit turns args os St.zero with ⟨_ | r, s'⟩ <;> rw [hrun] at h
  · exact h
  · exact h

/-- `main` that comes to its final stop stops the server, whose state is that behind the last call
of the handler. -/
theorem MainStops.stops {turns : ℕ} {args : List (List Byte)} (h : MainStops os quit turns args) :
    ∃ s r s₁, MainCalls os quit turns args s ∧ serverHandler os s = (some r, s₁) ∧
      Stops s₁ (main quit turns args os St.zero).2 := by
  obtain ⟨s, r, s₁, hcalls, hrun, hq⟩ := h
  refine ⟨s, r, s₁, hcalls, hrun, ?_⟩
  cases hcalls with
  | @mk name argv s₀ _ k h0 hk h =>
    obtain ⟨n, rfl⟩ : ∃ n, turns = k + (n + 1) := ⟨turns - k - 1, by omega⟩
    have hloop : mainLoop quit (k + (n + 1)) os s₀ = (some r, s₁) := by
      unfold mainLoop
      rw [h.loop_eq, loop, if_pos trivial, run_bind_of_some (mainBody_leaves hrun hq)]
      rfl
    have hstop : wp os (if r = 0 then serverStop else do
        let _ ← serverStop
        pure r) (fun _ s' => Stops s₁ s') (fun s' => Stops s₁ s') s₁ := by
      refine wp_ite (fun _ => wp_serverStop) fun _ => ?_
      exact wp_seq wp_serverStop fun _ s' hst => hst
    have hstart : mainStart ⟨argv.ipAddr, argv.port, argv.rootPath⟩ os St.zero = (some 0, s₀) := h0
    dsimp only [main]
    rw [run_bind_of_some hstart, if_neg (not_not.mpr rfl), run_bind_of_some hloop]
    exact wp_state.mp hstop

/-- **Whatever made it return, `main` leaves no socket open** but those on which a `shutdown`
failed while they were held: for every command line, every machine, every moment at which it is
asked to quit, and any number of turns.  It returns zero only if it was asked to quit, and then the
last call of the handler had returned zero; if it came to its loop, no field of the record holds a
socket any more. -/
theorem main_releases {turns : ℕ} {argv : List (List Byte)} {r : Int}
    (h : main quit turns argv os St.zero = (some r, s')) :
    (∀ fd ∈ held s'.log, Lost fd s'.log) ∧ s'.data.isServerSocketCreated = false ∧
      s'.data.isConnected = false ∧
      (Lookups s'.log ∧ r ≠ 0 ∨ ∀ slot, s'.data.sock slot = -1) ∧
      (r = 0 → ∃ argv s s₁, Reachable os argv s ∧ Turn os s s₁ ∧ quit s₁.log = true ∧
        Stops s₁ s') := by
  have hstopped : ∀ {s₁ : St}, Filed s₁ → Stops s₁ s' → (∀ fd ∈ held s'.log, Lost fd s'.log) ∧
      s'.data.isServerSocketCreated = false ∧ s'.data.isConnected = false ∧
      ∀ slot, s'.data.sock slot = -1 := by
    intro s₁ hf hst
    refine ⟨fun fd hfd => (mem_kept_or_lost hfd).resolve_left (hf.stops hst fd), ?_⟩
    cases hst with
    | mk => exact ⟨rfl, rfl, fun slot => by cases slot <;> rfl⟩
  cases of_wp_run wp_main h with
  | refused hr hu =>
    refine ⟨fun fd hfd => ?_, hu.created, hu.connected, Or.inl ⟨hu.lookups, hr⟩,
      fun h0 => absurd h0 hr⟩
    rw [← List.append_nil s'.log, held_append_of_neutral hu.lookups.neutral] at hfd
    exact absurd hfd List.not_mem_nil
  | failed hs hrun hr hst =>
    obtain ⟨_, hs⟩ := hs.reachable
    have hsound := Reachable.sound hs
    have hf := (Reachable.filed hs).step hsound (Step.of_run hsound.configured hrun)
    obtain ⟨h1, h2, h3, h4⟩ := hstopped hf hst
    exact ⟨h1, h2, h3, Or.inr h4, fun h0 => absurd h0 hr⟩
  | quitted hs ht hq hst =>
    obtain ⟨_, hs⟩ := hs.reachable
    have hf := (Reachable.filed hs).step (Reachable.sound hs) (Reachable.step hs ht)
    obtain ⟨h1, h2, h3, h4⟩ := hstopped hf hst
    exact ⟨h1, h2, h3, Or.inr h4, fun _ => ⟨_, _, _, hs, ht, hq, hst⟩⟩

/-- On a host the states in which `main` calls the handler can be computed. -/
theorem Host.mainCalls_run {turns : ℕ} {name : List Byte} {args : List (List Byte)} (argv : Argv)
    (hargs : args = [name, argv.ipAddr, argv.port, argv.rootPath])
    (h : MainCalls os quit turns args s) :
    ∃ k < turns, s = Host.run os k (Host.start os argv) := by
  cases h with
  | @mk name' argv' s₀ _ k h0 hk h =>
    obtain ⟨h1, h2, h3⟩ : argv'.ipAddr = argv.ipAddr ∧ argv'.port = argv.port ∧
        argv'.rootPath = argv.rootPath := by simpa using (List.cons.inj hargs).2
    have hargv : argv' = argv := by
      cases argv
      cases argv'
      exact Argv.mk.injEq _ _ _ _ _ _ ▸ ⟨h1, h2, h3⟩
    subst hargv
    have hstart : s₀ = Host.start os argv' := (congrArg Prod.snd h0).symm
    refine ⟨k, hk, ?_⟩
    rw [← hstart]
    refine h.invariant (I := fun k _ s => s = Host.run os k s₀) rfl ?_
    rintro k v s v' s' rfl _ hrun
    rcases mainBody_run hrun with ⟨r, -, -, ho⟩ | ⟨ht, -⟩
    · exact absurd ho (by simp)
    · rw [Host.run_succ]
      exact (congrArg Prod.snd ht).symm

/-- The program is asked to quit once a client is connected. -/
def quitsConnected (log : Log) : Bool := decide (.accept .server 3 4 ∈ log)

/-- The arguments `vsftp 127.0.0.1 2121 /srv`. -/
def quitArgv : List (List Byte) :=
  [ascii "vsftp", ascii "127.0.0.1", ascii "2121", ascii "/srv"]

/-- The state in which `main` returns then. -/
def quitState : St := (main quitsConnected 5 quitArgv Host.plain.os St.zero).2

theorem main_quitState :
    main quitsConnected 5 quitArgv Host.plain.os St.zero = (some 0, quitState) :=
  Prod.ext (by decide +kernel) (by rw [quitState])

theorem main_releases_connected : (∀ fd ∈ held quitState.log, Lost fd quitState.log) ∧
    quitState.data.isServerSocketCreated = false ∧ quitState.data.isConnected = false ∧
    (Lookups quitState.log ∧ (0 : Int) ≠ 0 ∨ ∀ slot, quitState.data.sock slot = -1) ∧
    ((0 : Int) = 0 → ∃ argv s s₁, Reachable Host.plain.os argv s ∧ Turn Host.plain.os s s₁ ∧
      quitsConnected s₁.log = true ∧ Stops s₁ quitState) := main_releases main_quitState

end VsFtp
