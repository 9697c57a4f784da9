import VsFtp.Host
import VsFtp.Invariants

/-!
# What takes the server down

Once the server listens, a turn of the loop of `main` either keeps it listening or
takes it down: the call returns a nonzero status, on which `main` ends, or it stops
the server, or the process is killed.

## Main definitions

* `Listening` — the server's socket is open and known as such.
* `Withstands` — what a client sends in a turn, and what the system answers, does not
  take the server down.

## Main results

* `Sound.exists_turn` — a turn that withstands its client keeps the server listening.
* `withstanding_run_listens` — **a run all of whose turns withstand their clients goes
  on, on the same listening socket.**
* `reset_takes_down` — a client that resets its connection takes the server down.
-/

namespace VsFtp

open CString Prog

variable {os : Os} {s s' : St} {argv : Argv}

/-- The server's socket is open, and the record says so. -/
def Listening (s : St) : Prop :=
  s.data.isServerSocketCreated = true ∧ s.data.serverSock ∈ held s.log

/-- The client that is connected does not take the server down: what it sends arrives,
does not fill the buffer, and is a line, or the end of the connection, or else
`errno` has kept the value `EAGAIN` from an earlier call; and if it is a command that
prints the working directory, this can be printed. -/
def Converses (os : Os) (s : St) : Prop :=
  (∃ bytes, received os s = some bytes ∧ (bytes = [] ∨ IsLine bytes ∨
    os.errno (examinedLog s.data.clientSock (some bytes) s.log) = eagain)) ∧
  ¬ Overlong os s ∧
  ∀ c args len s1, Called os s c args len s1 → Prints os s1 args len c → Printable os s.data

/-- The client that connects does not take the server down: the root path can be
entered, which prints the working directory of the last client, and the greeting
can be sent. -/
def Welcomes (os : Os) (s : St) : Prop :=
  Printable os s.data ∧
    ∃ r, Enterable os (acceptedLog os s) s.data.rootPath (acceptedData os s) r ∧
      os.write (.stat r (os.stat (.realpath s.data.rootPath (some r) :: acceptedLog os s) r) ::
          .realpath s.data.rootPath (some r) :: acceptedLog os s)
        (os.accept s.log s.data.serverSock) greeting ≠ -1

/-- The turn from `s` does not take the server down. -/
def Withstands (os : Os) (s : St) : Prop :=
  if s.data.isConnected = true then Converses os s
  else os.accept s.log s.data.serverSock < 0 ∧ os.errno (acceptedLog os s) = eagain ∨
    0 ≤ os.accept s.log s.data.serverSock ∧ Welcomes os s

/-! ### One turn -/

theorem Parsing.server {buffer : List Byte} {len : ℕ} {r : Int} (h : Parsing os s buffer len r s') :
    s'.data.isServerSocketCreated = s.data.isServerSocketCreated ∧
      s'.data.serverSock = s.data.serverSock := by
  cases h with
  | known _ ho => exact ⟨ho.session.1, ho.session.2.1⟩
  | unknown => exact ⟨rfl, rfl⟩

theorem Handled.server {r : Int} (h : Handled s r s') :
    s'.data.isServerSocketCreated = s.data.isServerSocketCreated ∧
      s'.data.serverSock = s.data.serverSock := by
  cases h <;> exact ⟨rfl, rfl⟩

/-- A client that converses is not disconnected by a nonzero status. -/
theorem Converses.step {r : Int} (h : Converses os s) (hs : Conversing os s r s') :
    r = 0 ∧ s'.data.isServerSocketCreated = s.data.isServerSocketCreated ∧
      s'.data.serverSock = s.data.serverSock := by
  obtain ⟨⟨bytes, hread, hbytes⟩, -, -⟩ := h
  cases hs with
  | line _ _ hp hh =>
    exact ⟨rfl, hh.server.1.trans hp.server.1, hh.server.2.trans hp.server.2⟩
  | closed _ hd =>
    cases hd
    exact ⟨rfl, rfl, rfl⟩
  | ignored hread' =>
    obtain rfl := hread.symm.trans hread'
    exact ⟨rfl, rfl, rfl⟩
  | stopped hread' hne hline herr =>
    -- this takes an answer that is none of the three
    obtain rfl := hread.symm.trans hread'
    rcases hbytes with rfl | hl | he
    · exact absurd rfl hne
    · exact absurd hl hline
    · exact absurd he herr

theorem Converses.not_killed (h : Converses os s) (hc : s.data.isServerSocketCreated = true)
    (hcon : s.data.isConnected = true) : ¬ ConversingKilled os s s' := by
  rintro (⟨-, ho⟩ | ⟨hread, hline, name, c, hfind, hprints, hnot, -⟩)
  · exact h.2.1 ho
  · exact hnot (h.2.2 _ _ _ _ (.mk hc hcon hread hline hfind) hprints)

/-- A client that is welcome is greeted. -/
theorem Welcomes.step {r : Int} (h : Welcomes os s) (ha : 0 ≤ os.accept s.log s.data.serverSock)
    (hs : Waiting os s r s') : r = 0 ∧
      s'.data.isServerSocketCreated = s.data.isServerSocketCreated ∧
      s'.data.serverSock = s.data.serverSock := by
  obtain ⟨-, p, henter, hwrite⟩ := h
  cases hs with
  | idle hneg => omega
  | stopped hneg => omega
  | homeless _ hd hr =>
    cases hd with
    | failed _ _ hno => exact absurd henter (hno p)
    | entered => exact absurd rfl hr
  | ungreeted _ hd hw =>
    cases hd with
    | failed hr => exact absurd rfl hr
    | entered henter' =>
      obtain rfl := Option.some.inj (henter.1.symm.trans henter'.1)
      exact absurd hw hwrite
  | connected _ hd =>
    obtain ⟨cwd, cwdLen, rfl⟩ := hd.exists_eq
    exact ⟨rfl, rfl, rfl⟩

/-- **A turn that withstands its client returns zero and keeps the server
listening**, on the same socket. -/
theorem Sound.exists_turn (h : Sound os s) (hc : s.data.isServerSocketCreated = true)
    (hw : Withstands os s) : ∃ s', Turn os s s' ∧ Listening s' ∧
      s'.data.serverSock = s.data.serverSock := by
  -- whatever status a step has, it is zero
  have hstep : ∀ {r s'}, Step os s r s' → r = 0 ∧
      s'.data.isServerSocketCreated = s.data.isServerSocketCreated ∧
        s'.data.serverSock = s.data.serverSock := by
    intro r s' hs
    unfold Withstands at hw
    cases hs with
    | starting hn => simp [hc] at hn
    | waiting _ hn hs =>
      rw [if_neg (by simp [hn])] at hw
      rcases hw with ⟨ha, herr⟩ | ⟨ha, hwel⟩
      · cases hs with
        | idle => exact ⟨rfl, rfl, rfl⟩
        | stopped _ herr' => exact absurd herr herr'
        | homeless ha' => omega
        | ungreeted ha' => omega
        | connected ha' => omega
      · exact hwel.step ha hs
    | conversing _ hcon hs =>
      rw [if_pos hcon] at hw
      exact hw.step hs
  have hkill : ∀ s', ¬ Killing os s s' := by
    intro s' hk
    unfold Withstands at hw
    cases hk with
    | starting hn => simp [hc] at hn
    | waiting _ hn ha hk =>
      rw [if_neg (by simp [hn])] at hw
      rcases hw with ⟨ha', -⟩ | ⟨-, hwel⟩
      · omega
      · exact hk.1 hwel.1
    | conversing _ hcon hk =>
      rw [if_pos hcon] at hw
      exact hw.not_killed hc hcon hk
  obtain ⟨r, s', hrun, hs⟩ := exists_run_of_wp
    (wp_mono (wp_serverHandler h.configured) (fun _ _ h => h) fun s' hk => hkill s' hk)
  obtain ⟨rfl, hcreated, hserver⟩ := hstep hs
  have hcreated' := hcreated.trans hc
  exact ⟨s', hrun, ⟨hcreated', ((h.step hs).server hcreated').held⟩, hserver⟩

/-! ### Runs -/

/-- **No client takes the server down in a run all of whose turns withstand their
clients**: from a reachable state in which the server listens, every state of such
a run has a next turn that returns zero and leaves the server listening on the
socket it had. -/
theorem withstanding_run_listens (h : Reachable os argv s)
    (hc : s.data.isServerSocketCreated = true)
    (hrun : Reach (· = s) (fun a b => Withstands os a ∧ Turn os a b) s')
    (hw : Withstands os s') :
    ∃ s'', Turn os s' s'' ∧ Listening s'' ∧ s''.data.serverSock = s.data.serverSock := by
  have hinv : Sound os s' ∧ s'.data.isServerSocketCreated = true ∧
      s'.data.serverSock = s.data.serverSock := by
    refine hrun.invariant (I := fun s' => Sound os s' ∧ s'.data.isServerSocketCreated = true ∧
      s'.data.serverSock = s.data.serverSock) ?_ ?_
    · rintro _ rfl
      exact ⟨h.sound, hc, rfl⟩
    · rintro a b - ⟨hi, hc, hs⟩ ⟨hw, ht⟩
      obtain ⟨b', ht', hl, hs'⟩ := hi.exists_turn hc hw
      obtain rfl : b' = b := congrArg Prod.snd (ht'.symm.trans ht)
      exact ⟨hi.step (Step.of_run hi.configured ht), hl.1, hs'.trans hs⟩
  obtain ⟨hi, hc', hs⟩ := hinv
  obtain ⟨s'', ht, hl, hs'⟩ := hi.exists_turn hc' hw
  exact ⟨s'', ht, hl, hs'.trans hs⟩

/-- A client that sends a line which does not fill the buffer, while the working directory can be
printed. -/
theorem Converses.of_line (hread : (received os s).any fun bytes =>
    decide (IsLine bytes ∧ bytes.length < requestLenMax)) (hp : Printable os s.data) :
    Converses os s := by
  obtain ⟨bytes, hbytes, hline⟩ := (Option.any_eq_true _ _).mp hread
  obtain ⟨hline, hlen⟩ := of_decide_eq_true hline
  refine ⟨⟨bytes, hbytes, Or.inr (Or.inl hline)⟩, ?_, ?_⟩
  · rintro ⟨bytes', hbytes', hfull, -⟩
    obtain rfl : bytes = bytes' := Option.some.inj (hbytes.symm.trans hbytes')
    omega
  · intro c args len s1 hcall _
    exact hp

/-- A machine on which a client enters a directory and asks where it is, for a file that is not
there and for a transfer. -/
def steadyHost : Host :=
  { nodes := [Host.srv, Host.docs],
    reads := ["CWD docs", "PWD", "SIZE x", "PASV", "NLST"].map fun l => some (ascii l ++ crlf) }

/-- The state in which it waits for the client. -/
def steadyStart : St := Host.run steadyHost.os 1 (Host.start steadyHost.os Host.argv)

/-- The states from there on. -/
def steadyState (k : ℕ) : St := Host.run steadyHost.os k steadyStart

theorem steadyState_turns : ∀ k < 5,
    (serverHandler steadyHost.os (steadyState k)).1 = some 0 := by decide +kernel

theorem steadyState_lines : ∀ k < 5, (steadyState (k + 1)).data.isConnected = true ∧
    ((received steadyHost.os (steadyState (k + 1))).any fun bytes =>
      decide (IsLine bytes ∧ bytes.length < requestLenMax)) ∧
    (formatText (steadyState (k + 1)).data.cwd (steadyState (k + 1)).data.cwdLen).isSome
      = true := by
  decide +kernel

theorem steadyStart_withstands : Withstands steadyHost.os steadyStart := by
  refine (if_neg (by decide +kernel)).mpr (Or.inr ⟨by decide +kernel, Or.inl (by decide +kernel),
    ascii "/srv", ⟨?_, ?_, ?_, ?_⟩, ?_⟩) <;> decide +kernel

theorem steadyState_withstands {k : ℕ} (hk : k < 6) : Withstands steadyHost.os (steadyState k) := by
  rcases k with _ | k
  · exact steadyStart_withstands
  · obtain ⟨hcon, hread, hprint⟩ := steadyState_lines k (by omega)
    exact (if_pos hcon).mpr (.of_line hread (Or.inl hprint))

theorem steadyState_run : ∀ n < 6, Reach (· = steadyStart) (fun a b =>
    Withstands steadyHost.os a ∧ Turn steadyHost.os a b) (steadyState n) := by
  intro n
  induction n with
  | zero => exact fun _ => .start rfl
  | succ n ih =>
    intro hn
    refine .step (ih (by omega)) ⟨steadyState_withstands (by omega), ?_⟩
    exact Prod.ext (steadyState_turns n (by omega)) Host.run_succ.symm

/-- From the start on the client is accepted and its five lines are handled. -/
theorem withstanding_run_listens_commands : ∃ s', Turn steadyHost.os (steadyState 5) s' ∧
    Listening s' ∧ s'.data.serverSock = steadyStart.data.serverSock :=
  withstanding_run_listens (Host.reachable_run (by decide +kernel)) (by decide +kernel)
    (steadyState_run 5 (by decide)) (steadyState_withstands (by decide))

/-- `ECONNRESET`. -/
abbrev econnreset : ℕ := 104

/-- A machine on which the client has reset its connection when it is read from. -/
def droppedHost : Host := { nodes := [Host.srv], reads := [none], errno := econnreset }

/-- **A client that resets its connection takes the server down**: the server listens, a client is
connected, the read fails with `ECONNRESET`, and the call returns -1 and has closed the listening
socket. -/
theorem reset_takes_down :
    let s := Host.run droppedHost.os 2 (Host.start droppedHost.os Host.argv)
    Reachable droppedHost.os Host.argv s ∧ Listening s ∧ received droppedHost.os s = none ∧
      droppedHost.os.errno (examinedLog s.data.clientSock none s.log) = econnreset ∧
      (serverHandler droppedHost.os s).1 = some (-1) ∧
      .close s.data.serverSock 0 ∈ (serverHandler droppedHost.os s).2.log ∧
      (serverHandler droppedHost.os s).2.data.isServerSocketCreated = false := by
  refine ⟨Host.reachable_run (by decide +kernel), ⟨?_, ?_⟩, ?_, rfl, ?_, ?_, ?_⟩ <;> decide +kernel

end VsFtp
