import VsFtp.Host
import VsFtp.Invariants
import VsFtp.Turns
import VsFtp.Lib.Monitor

/-!
# The files that are open

`RETR` opens a file, asks for its size, reads it and closes it.  A monitor of the log keeps track of
the file that is open: in every run there is at most one, only its descriptor is read and closed,
and none stays open when the handler of `RETR` is left, whatever the calls return.

## Main definitions

* `Event.file`, `Event.fileUse` — the monitor, and when a record may come.
* `Opens` — the outcome of `VSFTPFilesystemOpenFile`.

## Main results

* `wp_serverSendfileTransfer_files` — sending a file closes what it has opened.
* `Step.files` — a call of the handler opens and closes files in turn.
* `files_in_order` — **so does every run**, and between two calls no file is open.
-/

namespace VsFtp

open CString Prog Monitor

attribute [local irreducible] serverSendReply helpText

variable {os : Os} {s s' : St} {argv : Argv} {log : Log} {r : Int} {E : St → Prop}

/-! ### The monitor -/

/-- The file that is open behind a record. -/
def Event.file (e : Event) (p : Option Int) : Option Int :=
  match e with
  | .openFile _ fd => if fd = -1 then none else some fd
  | .closeFile fd _ => if p = some fd then none else p
  | _ => p

/-- What may be done while a file is open, and without one.  If `open` fails, what is passed to
`close` is -1. -/
def Event.fileUse (e : Event) (p : Option Int) : Prop :=
  match e with
  | .fstat fd _ => p = some fd
  | .readFile fd _ _ => p = some fd
  | .closeFile fd _ => p = some fd ∨ p = none ∧ fd = -1
  | .write .transferClient _ _ _ => True
  | _ => p = none

/-- Some records use files in order. -/
abbrev Files (p : Option Int) (N : List Event) (q : Option Int) : Prop :=
  Passes Event.fileUse Event.file p N q

theorem Files.nil {p : Option Int} : Files p [] p := Passes.nil

/-- A record that may come where the files stand continues a use of files in order. -/
theorem Files.record {p q : Option Int} {N : List Event} (h : Files p N q) (e : Event)
    (he : e.fileUse q) : Files p (e :: N) (e.file q) := Passes.record h e he

/-- Records of other kinds. -/
theorem OfKind.files {ks : List Kind} {N : List Event} (h : OfKind ks N) (hk : .file ∉ ks) :
    Files none N none := by
  refine .of_keeps fun e he => ?_
  have hkind := h e he
  cases e with
  | write who => cases who <;> exact ⟨by trivial, rfl⟩
  | access => exact absurd hkind hk
  | openFile => exact absurd hkind hk
  | fstat => exact absurd hkind hk
  | readFile => exact absurd hkind hk
  | closeFile => exact absurd hkind hk
  | _ => exact ⟨rfl, rfl⟩

theorem Adds.files {ks : List Kind} {log' : Log} (h : Adds ks log log') (hk : .file ∉ ks) :
    Leads Event.fileUse Event.file none log none log' := by
  obtain ⟨N, rfl, hN⟩ := h
  exact .mk (hN.files hk)

/-! ### Sending a file -/

/-- The outcome of `VSFTPFilesystemOpenFile`. -/
inductive Opens (path : List Byte) : OpenOut → List Event → Prop
  | inaccessible {a : Int} (ha : a ≠ 0) : Opens path ⟨a, -1, 0⟩ [.access path a]
  | unopened : Opens path ⟨-1, -1, 0⟩ [.openFile path (-1), .access path 0]
  | unknown {fd : Int} (hfd : fd ≠ -1) :
      Opens path ⟨-1, fd, 0⟩ [.fstat fd none, .openFile path fd, .access path 0]
  | opened {fd : Int} {st : Stat} (hfd : fd ≠ -1) :
      Opens path ⟨0, fd, st.size⟩ [.fstat fd (some st), .openFile path fd, .access path 0]

theorem wp_filesystemOpenFile {path : List Byte} {len : ℕ} (hlen : 0 < len) :
    wp os (filesystemOpenFile path len (-1) 0 : ServerM OpenOut)
      (fun out s' => ∃ L, Opens path out L ∧ s' = ⟨s.data, L ++ s.log⟩) E s := by
  unfold filesystemOpenFile
  rw [if_pos hlen]
  refine (wp_bind _ _).mpr ((wp_call _ _).mpr ?_)
  generalize os.access _ _ = a
  refine wp_ite (fun h0 => ?_) fun ha => ⟨_, .inaccessible ha, rfl⟩
  subst h0
  refine (wp_bind _ _).mpr ((wp_call _ _).mpr ?_)
  generalize os.openFile _ _ = fd
  refine wp_ite (fun h => ?_) fun hfd => ?_
  · subst h
    exact ⟨_, .unopened, rfl⟩
  · refine (wp_bind _ _).mpr ((wp_call _ _).mpr ?_)
    cases os.fstat _ _ with
    | none => exact ⟨_, .unknown hfd, rfl⟩
    | some st => exact ⟨_, Opens.opened hfd, rfl⟩

/-- Behind opening a file the one that is open is the one whose descriptor was stored. -/
theorem Opens.files {path : List Byte} {out : OpenOut} {L : List Event} (h : Opens path out L) :
    ∃ p, Files none L p ∧ (p = some out.fd ∨ p = none ∧ out.fd = -1) ∧
      (out.retval = 0 → p = some out.fd) ∧ out.size < 2 ^ 64 := by
  have haccess : ∀ a, Files none [.access path a] none :=
    fun a => Files.nil.record (.access path a) rfl
  have hopened : ∀ {fd : Int} {st : Option Stat}, fd ≠ -1 →
      Files none [.fstat fd st, .openFile path fd, .access path 0] (some fd) := by
    intro fd st hfd
    have h1 : Files none [.openFile path fd, .access path 0] (some fd) :=
      (haccess 0).cons rfl (if_neg hfd)
    exact Files.record h1 (.fstat fd st) rfl
  cases h with
  | inaccessible ha =>
    exact ⟨none, haccess _, Or.inr ⟨rfl, rfl⟩, fun h => absurd h ha, Nat.two_pow_pos 64⟩
  | unopened =>
    exact ⟨none, Files.record (haccess 0) (.openFile path (-1)) rfl, Or.inr ⟨rfl, rfl⟩,
      fun h => absurd h (by decide), Nat.two_pow_pos 64⟩
  | unknown hfd => exact ⟨_, hopened hfd, Or.inl rfl, fun _ => rfl, Nat.two_pow_pos 64⟩
  | @opened _ st hfd => exact ⟨_, hopened hfd, Or.inl rfl, fun _ => rfl, st.size_lt⟩

theorem Copies.files {x fd : Int} {count : ℕ} {retval : Int} {D : List Event}
    (h : Copies x fd count retval D) : Files (some fd) D (some fd) := by
  refine .of_keeps fun e he => ?_
  rcases h.mem e he with ⟨n, b, rfl⟩ | ⟨bytes, w, rfl⟩
  · exact ⟨rfl, rfl⟩
  · exact ⟨trivial, rfl⟩

/-- **Sending a file closes what it has opened.** -/
theorem wp_serverSendfileTransfer_files {path : List Byte} {len : ℕ} (hlen : 0 < len) :
    wp os (serverSendfileTransfer path len)
      (fun _ s' => ∃ D, Files none D none ∧ s' = ⟨s.data, D ++ s.log⟩) E s := by
  unfold serverSendfileTransfer filesystemCloseFile
  refine wp_seq (wp_filesystemOpenFile hlen) ?_
  rintro out _ ⟨L, hL, rfl⟩
  obtain ⟨p, hp, hfd, h0, hsize⟩ := hL.files
  have hclose : ∀ {N : List Event} {q : Int}, Files none N p →
      Files none (.closeFile out.fd q :: N) none := by
    intro N q hN
    rcases hfd with rfl | ⟨rfl, hfd⟩
    · exact hN.cons (Or.inl rfl) (if_pos rfl)
    · exact Files.record hN (.closeFile out.fd q) (Or.inr ⟨rfl, hfd⟩)
  -- the loop reads the file that is open
  have hsent : wp os (onOk out.retval (sendfileLoop out.fd out.size out.size 0 out.retval))
      (fun _ s' => ∃ D, Files none D p ∧ s' = ⟨s.data, D ++ s.log⟩) E ⟨s.data, L ++ s.log⟩ := by
    refine wp_onOk (fun hr => ?_) fun _ => ⟨L, hp, rfl⟩
    obtain rfl := h0 hr
    rw [hr]
    refine wp_mono (wp_sendfileLoop le_rfl hsize) ?_ fun _ h => h
    rintro retval _ ⟨D, hD, rfl⟩
    exact ⟨D ++ L, hD.files.append hp, by rw [List.append_assoc]⟩
  refine wp_seq hsent ?_
  rintro retval _ ⟨D, hD, rfl⟩
  exact ⟨_ :: D, hclose hD, rfl⟩

/-! ### A call of the handler -/

theorem Transferring.files {B : Int → Log → Int → List Event → Prop} {d : ServerData} {a r0 x : Int}
    {T : List Event} (hB : ∀ {x log r D}, B x log r D → Files none D none)
    (h : Transferring B d a log r0 r x T) : Files none T none := by
  have haccept : Files none [.accept .transferClient d.transferSock a] none :=
    Files.nil.record (.accept .transferClient d.transferSock a) rfl
  cases h with
  | skipped => exact .nil
  | unconnected hA => exact hA.ofKind.files (by decide)
  | unannounced _ _ hP => exact (hP.ofKind.files (by decide)).append haccept
  | transferred _ _ hP hD => exact (hB hD).append ((hP.ofKind.files (by decide)).append haccept)

/-- **The handler of `RETR` leaves no file open.** -/
theorem wp_commandHandlerRetr_files {args : List Byte} {len : ℕ} :
    wp os (commandHandlerRetr args len)
      (fun _ s' => Leads Event.fileUse Event.file none s.log none s'.log) (fun _ => True) s := by
  refine wp_mono (wp_commandHandlerRetr_send (fun _ _ _ _ D => Files none D none)
    fun hlen x log => wp_serverSendfileTransfer_files hlen) ?_ fun _ _ => trivial
  rintro r s' ⟨out, L, hL, h⟩
  cases h with
  | mk hT hX hY =>
    have hlookups : Leads Event.fileUse Event.file none s.log none (L ++ s.log) :=
      .mk (hL.lookups.ofKind.files (by decide))
    have h1 := hlookups.append (Transferring.files (fun h => h) hT)
    have h2 := (h1.append (hX.ofKind.files (by decide))).append (hY.ofKind.files (by decide))
    exact Leads.cons h2 rfl rfl

/-- A log goes on with files used in order, and without an open one in the end. -/
abbrev Closed (log log' : Log) : Prop := Leads Event.fileUse Event.file none log none log'

theorem calledState_files {bytes name : List Byte} {c : Command} :
    Closed s.log
      (calledState (lineState s bytes) (lineBuffer bytes) (bytes.length - 2) name c).log :=
  ((lineState_adds bytes).files (by decide)).trans ((calledState_adds _ _ _ _).files (by decide))

/-- Only the handler of `RETR` uses files. -/
theorem Outcome.files {args : List Byte} {len : ℕ} {c : Command} (hc : c ≠ .retr)
    (h : Outcome os s args len c r s') : Closed s.log s'.log := by
  refine h.adds.files ?_
  cases c <;> first | decide | exact absurd rfl hc

theorem Handled.files (h : Handled s r s') : Closed s.log s'.log := h.adds.files (by decide)

theorem Conversing.files (hcreated : s.data.isServerSocketCreated = true)
    (hcon : s.data.isConnected = true) (hs : Conversing os s r s')
    (hrun : serverHandler os s = (some r, s')) : Closed s.log s'.log := by
  cases hs with
  | @line bytes _ _ _ hread hline hp hh =>
    cases hp with
    | @known name c _ _ hfind ho =>
      by_cases hc : c = .retr
      · subst hc
        have hcall := Called.mk hcreated hcon hread hline hfind
        obtain ⟨r1, s2, hsent, hh⟩ := hcall.of_turn wp_commandHandlerRetr_files hrun
        exact (calledState_files.trans hsent).trans hh.files
      · exact (calledState_files.trans (ho.files hc)).trans hh.files
    | unknown =>
      exact (((lineState_adds bytes).files (by decide)).trans
        ((unknown_adds _ _ _).files (by decide))).trans hh.files
  | closed _ hd =>
    exact ((storedLog_adds _ _ _).files (by decide)).trans (hd.adds.files (by decide))
  | ignored => exact .mk ((examined_ofKind _ _).files (by decide))
  | stopped _ _ _ _ hst =>
    exact Leads.trans (.mk ((examined_ofKind _ _).files (by decide))) (hst.adds.files (by decide))

/-- **A call of the handler leaves no file open**, whatever it returns. -/
theorem serverHandler_files (hi : Sound os s) : Closed s.log (serverHandler os s).2.log := by
  rcases hrun : serverHandler os s with ⟨_ | r, s'⟩
  · exact (Killing.of_run hi.configured hrun).adds.files (by decide)
  · cases Step.of_run hi.configured hrun with
    | starting _ hs => exact hs.adds.files (by decide)
    | waiting _ _ hs => exact hs.adds.files (by decide)
    | conversing hcreated hcon hs => exact hs.files hcreated hcon hrun

theorem Reachable.files (h : Reachable os argv s) : Files none s.log none := by
  refine h.invariant (I := fun s => Files none s.log none) ?_ ?_
  · exact fun s h0 => (started_spec h0).2.ofKind.files (by decide)
  · intro s s' hr hfiles ht
    have h1 := serverHandler_files (Reachable.sound hr)
    rw [show serverHandler os s = _ from ht] at h1
    exact h1.passes hfiles

/-- **Files are used in order in every run**: behind any number of turns and one more call of the
handler, which may return anything or be killed, a file was only ever opened when none was open, it
was only asked for its size, read and closed under the descriptor it was opened with, nothing but
data was written while it was open, and none is open any more. -/
theorem files_in_order (h : Reachable os argv s) : Files none (serverHandler os s).2.log none :=
  (serverHandler_files (Reachable.sound h)).passes (Reachable.files h)

/-- A machine on which the client fetches a file. -/
def sendHost : Host :=
  { nodes := [Host.srv, Host.node ["srv", "f"] .regular (ascii "hello") Host.valid_f],
    reads := [some (ascii "PASV" ++ crlf), some (ascii "RETR f" ++ crlf)],
    fileReads := [ascii "hello"] }

theorem files_in_order_retr : Files none (serverHandler sendHost.os
    (Host.run sendHost.os 3 (Host.start sendHost.os Host.argv))).2.log none :=
  files_in_order (Host.reachable_run (by decide +kernel))

end VsFtp
