import Mathlib.Data.List.Forall2
import VsFtp.Lib.Chronicle
import VsFtp.Lines
import VsFtp.Mapping
import VsFtp.Sessions
import VsFtp.Turns

/-!
# What a listing sends

`NLST` sends a line for each entry of the directory, in the order of `readdir`.  At the end of the
directory `VSFTPFilesystemListDirPerLine` succeeds too and leaves its buffer alone, so the loop
sends the line of the last entry again before it stops.

## Main definitions

* `dataLines` — what is handed to the data connection.
* `lineText` — what is shown of an entry.
* `shown` — the entries the lines of a listing are about.
* `Lists` — a directory is listed and the reply is a 226.

## Main results

* `wp_nlstLoop_lines` — the lines of a listing.
* `nlst_repeats_last` — **a listing that is answered with 226 has one line too many.**
* `entry_listed_twice` — a directory with one entry, and two lines.
-/

namespace VsFtp

open CString Prog

attribute [local irreducible] serverSendReply

variable {os : Os} {s : St} {E : St → Prop} {argv : Argv} {root lpath name : List Byte} {len : ℕ}

/-! ### Lines -/

/-- What a record shows to have been handed to the data connection. -/
def Event.dataLine : Event → List (List Byte)
  | .write .transferClient _ bytes _ => [bytes]
  | _ => []

/-- What was handed to the data connection, in order. -/
def dataLines (N : List Event) : List (List Byte) := chronicle Event.dataLine N

theorem dataLines_append {N M : List Event} : dataLines (N ++ M) = dataLines M ++ dataLines N :=
  chronicle_append

/-- What is shown of an entry: its name, or behind the server path of the directory if there was
an argument. -/
def lineText (root lpath : List Byte) (len : ℕ) (name : List Byte) : List Byte :=
  if len = 0 then name else serverPathOf root (lpath ++ 47 :: name)

/-- An entry whose line has room in its buffer. -/
structure Fits (root lpath : List Byte) (len : ℕ) (name : List Byte) : Prop where
  noNul : NoNul name
  ne_nil : name ≠ []
  room : (lineText root lpath len name).length + 3 ≤ pathLenMax

/-- The path that is listed for an argument is canonical and starts with the root path. -/
def Requested (root lpath : List Byte) (len : ℕ) : Prop :=
  len ≠ 0 → Path.Canonical (47 : Byte) lpath ∧ NoNul lpath ∧ root <+: lpath

/-- The line is that of the entry the variables hold, if they hold one that fits. -/
def ShowsLine (root lpath : List Byte) (len : ℕ) (bytes : List Byte) (held : Option (List Byte)) :
    Prop :=
  ∀ name, held = some name → Fits root lpath len name → bytes = lineText root lpath len name ++ crlf

/-- The variables of the loop hold the line of an entry. -/
def HoldsLine (lpath : List Byte) (len : ℕ) (l : Listing) (held : Option (List Byte)) : Prop :=
  ∀ name, held = some name →
    if len = 0 then name.length < pathLenMax ∧ l.bufLen = name.length ∧ ∃ t, l.buf = name ++ t
    else (lpath ++ 47 :: name).length < pathLenMax ∧ ∃ t, l.buf = (lpath ++ 47 :: name) ++ 0 :: t

/-! ### Sending a line -/

/-- The part of the body of the loop that sends what the buffer holds. -/
def nlstSend (len : ℕ) (l : Listing) : ServerM (Int × Listing) :=
  if len ≠ 0 then do
    let path ← serverRealPathToServerPath l.buf pathLenMax l.serverPath pathLenMax l.serverPathLen
    let l := { l with serverPath := path.buf, serverPathLen := path.len }
    if path.retval = 0 then do
      let (retval, serverPath) ←
        serverSendReplyOwnBufTransfer l.serverPath pathLenMax l.serverPathLen
      pure (retval, { l with serverPath := serverPath })
    else pure (path.retval, l)
  else do
    let (retval, buf) ← serverSendReplyOwnBufTransfer l.buf pathLenMax l.bufLen
    pure (retval, { l with buf := buf })

theorem nlstBody_eq {llen : ℕ} {l : Listing} : nlstBody lpath llen len l = (do
    let out ← filesystemListDirPerLine lpath llen l.buf pathLenMax l.bufLen (len ≠ 0) l.d
    let l := { l with buf := out.buf, bufLen := out.bufLen, d := out.cookie }
    if out.retval ≠ 0 then pure (out.retval, l) else nlstSend len l) := rfl

/-- A sender that succeeds has written one line. -/
theorem wp_sendTransfer_one {buf : List Byte} {n : ℕ} :
    wp os (serverSendReplyOwnBufTransfer buf pathLenMax n) (fun out s' => out.1 = 0 →
      ∃ bytes w, s' = ⟨s.data, .write .transferClient s.data.transferClientSock bytes w :: s.log⟩)
      E s := by
  by_cases hn : 0 < n
  · refine wp_mono (wp_sendReplyOwnBuf ⟨by decide, hn⟩) ?_ fun _ h => h
    rintro _ _ ⟨bytes, r, -, -, rfl⟩ -
    exact ⟨bytes, r, rfl⟩
  · unfold serverSendReplyOwnBufTransfer sendReplyOwnBuf
    rw [if_neg fun h => hn h.2]
    exact fun h => absurd h (by simp)

/-- A sender called on a text sends its line if that has room, and leaves the text alone. -/
theorem wp_sendTransfer_text {text rest : List Byte} (hlen : text.length < pathLenMax) :
    wp os (serverSendReplyOwnBufTransfer (text ++ rest) pathLenMax text.length) (fun out s' =>
      out.1 = 0 → (∃ t, out.2 = text ++ t) ∧ ∃ bytes w,
        s' = ⟨s.data, .write .transferClient s.data.transferClientSock bytes w :: s.log⟩ ∧
        (text.length + 3 ≤ pathLenMax → bytes = text ++ crlf)) E s := by
  have hmax : pathLenMax = 256 := rfl
  by_cases hpos : 0 < text.length
  · refine wp_mono (wp_sendReplyOwnBuf_text hpos hlen (by omega)) ?_ fun _ h => h
    rintro ⟨_, _⟩ _ ⟨w, behind, -, rfl, rfl⟩ -
    refine ⟨⟨_, snprintf_text hlen (by omega)⟩, _, w, rfl, fun hroom => ?_⟩
    rw [(lineEnd_eq_crlf_iff (by omega) behind).mpr (by omega)]
  · unfold serverSendReplyOwnBufTransfer sendReplyOwnBuf
    rw [if_neg fun h => hpos h.2]
    exact fun h => absurd h (by simp)

/-- The path of an entry goes on behind the root path. -/
theorem Requested.path (h : Requested root lpath len) (hlen : len ≠ 0) :
    root <+: lpath ++ 47 :: name ∧ lpath ++ 47 :: name ≠ root := by
  obtain ⟨rest, rfl⟩ := (h hlen).2.2
  exact ⟨⟨rest ++ 47 :: name, by simp⟩, by simp⟩

/-- Without an argument the line is sent from the buffer. -/
theorem wp_nlstSend_name {l : Listing} {held : Option (List Byte)}
    (hheld : HoldsLine lpath 0 l held) :
    wp os (nlstSend 0 l) (fun out s' => out.2.d = l.d ∧ (out.1 = 0 → ∃ bytes w,
      s' = ⟨s.data, .write .transferClient s.data.transferClientSock bytes w :: s.log⟩ ∧
      ShowsLine root lpath 0 bytes held ∧ HoldsLine lpath 0 out.2 held)) E s := by
  unfold nlstSend
  rw [if_neg fun h => h rfl]
  cases held with
  | none =>
    -- the buffer holds no line yet, and whatever is in it is sent
    refine wp_seq wp_sendTransfer_one ?_
    rintro ⟨retval, buf⟩ s' hone
    refine ⟨rfl, fun h0 => ?_⟩
    obtain ⟨bytes, w, rfl⟩ := hone h0
    exact ⟨bytes, w, rfl, by simp [ShowsLine], by simp [HoldsLine]⟩
  | some name =>
    obtain ⟨hlen, hbufLen, t, hbuf⟩ := hheld name rfl
    rw [hbuf, hbufLen]
    refine wp_seq (wp_sendTransfer_text hlen) ?_
    rintro ⟨retval, buf⟩ s' hone
    refine ⟨rfl, fun h0 => ?_⟩
    obtain ⟨⟨t', hbuf'⟩, bytes, w, rfl, hbytes⟩ := hone h0
    refine ⟨bytes, w, rfl, ?_, ?_⟩
    · intro _ hname hfits
      obtain rfl := Option.some.inj hname
      exact hbytes hfits.room
    · intro _ hname
      obtain rfl := Option.some.inj hname
      exact ⟨hlen, rfl, t', hbuf'⟩

/-- With an argument the buffer is left alone, and the line is sent from another. -/
theorem wp_nlstSend_path {l : Listing} (hlen : len ≠ 0) :
    wp os (nlstSend len l) (fun out s' => (out.2.d = l.d ∧ out.2.buf = l.buf) ∧
      (out.1 = 0 → ∃ bytes w,
        s' = ⟨s.data, .write .transferClient s.data.transferClientSock bytes w :: s.log⟩)) E s := by
  unfold nlstSend
  rw [if_pos hlen]
  refine wp_seq wp_serverRealPathToServerPath_unchanged ?_
  rintro path _ rfl
  refine wp_ite (fun _ => ?_) (fun hne => ⟨⟨rfl, rfl⟩, fun h => absurd h hne⟩)
  refine wp_seq wp_sendTransfer_one ?_
  rintro ⟨retval, buf⟩ s' hone
  exact ⟨⟨rfl, rfl⟩, hone⟩

/-- With an argument the line of an entry that fits is sent. -/
theorem wp_nlstSend_fits {l : Listing} {t : List Byte} (hlen : len ≠ 0)
    (hpath : Requested s.data.rootPath lpath len) (hroot : s.data.rootPath.length < pathLenMax)
    (hbuf : l.buf = (lpath ++ 47 :: name) ++ 0 :: t)
    (hshort : (lpath ++ 47 :: name).length < pathLenMax)
    (hfits : Fits s.data.rootPath lpath len name) :
    wp os (nlstSend len l) (fun out s' => out.1 = 0 → ∃ w,
      s' = ⟨s.data, .write .transferClient s.data.transferClientSock
        (lineText s.data.rootPath lpath len name ++ crlf) w :: s.log⟩) E s := by
  obtain ⟨hpre, hne⟩ := @Requested.path _ _ name _ hpath hlen
  have hn : NoNul (lpath ++ 47 :: name) := (hpath hlen).2.1.append (.cons (by decide) hfits.noNul)
  have htext : lineText s.data.rootPath lpath len name
      = serverPathOf s.data.rootPath (lpath ++ 47 :: name) := if_neg hlen
  have hle := (serverPathOf_length_le hne).trans_lt hshort
  unfold nlstSend
  rw [if_pos hlen, hbuf]
  refine wp_seq (wp_serverRealPathToServerPath_past hn hshort hpre hne hroot) ?_
  rintro _ _ ⟨rfl, rfl⟩
  simp only [if_true]
  rw [strncpy_zero hle.le, List.append_assoc]
  refine wp_seq (wp_sendTransfer_text hle) ?_
  rintro ⟨retval, buf⟩ s' hone h0
  obtain ⟨-, bytes, w, rfl, hbytes⟩ := hone h0
  rw [htext, hbytes (htext ▸ hfits.room)]
  exact ⟨w, rfl⟩

/-- **Sending what the buffer holds**: one line, that of the entry the variables hold, and they
hold it still. -/
theorem wp_nlstSend {l : Listing} {held : Option (List Byte)}
    (hpath : Requested s.data.rootPath lpath len) (hroot : s.data.rootPath.length < pathLenMax)
    (hheld : HoldsLine lpath len l held) :
    wp os (nlstSend len l) (fun out s' => out.2.d = l.d ∧ (out.1 = 0 → ∃ bytes w,
      s' = ⟨s.data, .write .transferClient s.data.transferClientSock bytes w :: s.log⟩ ∧
      ShowsLine s.data.rootPath lpath len bytes held ∧ HoldsLine lpath len out.2 held)) E s := by
  by_cases hlen : len = 0
  · subst hlen
    exact wp_nlstSend_name hheld
  · have hshows : wp os (nlstSend len l) (fun out s' => out.1 = 0 → ∀ bytes w,
        s' = ⟨s.data, .write .transferClient s.data.transferClientSock bytes w :: s.log⟩ →
        ShowsLine s.data.rootPath lpath len bytes held) E s := by
      -- a line that is too long may be cut, and then nothing is claimed about it
      by_cases hfits : ∃ name, held = some name ∧ Fits s.data.rootPath lpath len name
      · obtain ⟨name, rfl, hfits⟩ := hfits
        have hname := hheld name rfl
        rw [if_neg hlen] at hname
        obtain ⟨hshort, t, hbuf⟩ := hname
        refine wp_mono (wp_nlstSend_fits hlen hpath hroot hbuf hshort hfits) ?_ fun _ h => h
        rintro out s' hsent h0 bytes w hs' _ hname -
        obtain ⟨w', hs''⟩ := hsent h0
        obtain rfl := Option.some.inj hname
        have hlog := (List.cons.inj (congrArg Logged.log (hs'.symm.trans hs''))).1
        exact (Event.write.inj hlog).2.2.1
      · refine wp_mono (wp_nlstSend_path hlen) ?_ fun _ h => h
        intro _ _ _ _ _ _ _ name hname hf
        exact absurd ⟨name, hname, hf⟩ hfits
    refine wp_mono (wp_and (wp_nlstSend_path hlen) hshows) ?_ fun _ h => h.1
    rintro out s' ⟨⟨⟨hd, hbuf⟩, hone⟩, hline⟩
    refine ⟨hd, fun h0 => ?_⟩
    obtain ⟨bytes, w, rfl⟩ := hone h0
    refine ⟨bytes, w, rfl, hline h0 bytes w rfl, fun name hname => ?_⟩
    have h := hheld name hname
    rw [if_neg hlen] at h ⊢
    rw [hbuf]
    exact h

/-! ### Taking a name from the stream -/

/-- The stream behind the next entry, as long as there is one. -/
def Dir.next (dir : Dir) : Option Dir :=
  if dir.entries = [] then none else some { dir with entries := dir.entries.tail }

/-- The records of using the stream `dir`: that of a cookie, or one that is opened. -/
structure Streams (lpath : List Byte) (cookie : Option Dir) (dir : Dir) (N : List Event) :
    Prop where
  same : ∀ d, cookie = some d → dir = d
  opened : ∀ p d, .opendir p (some d) ∈ N ↔ cookie = none ∧ p = lpath ∧ d = dir

theorem snprintf_zero {dst text : List Byte} (h : text.length < pathLenMax) :
    ∃ t, snprintf dst 0 pathLenMax text = text ++ 0 :: t := by
  have hmax : pathLenMax = 256 := rfl
  refine ⟨dst.drop (text.length + 1), ?_⟩
  rw [snprintf, if_neg (by omega), overwrite_zero, List.take_of_length_le (by omega)]
  simp

/-- What the buffer holds after an entry was printed into it. -/
theorem holdsLine_snprintf {l : Listing} {written buf : List Byte} {d : Option Dir}
    (hw : written = if decide (len ≠ 0) = true then lpath ++ 47 :: name else name)
    (h : written.length < pathLenMax) :
    HoldsLine lpath len { l with
      buf := snprintf buf 0 pathLenMax written, bufLen := written.length, d := d } (some name) := by
  intro _ hname
  obtain rfl := Option.some.inj hname
  obtain ⟨t, ht⟩ := @snprintf_zero buf _ h
  by_cases hlen : len = 0
  · rw [if_neg (by simp [hlen])] at hw
    subst hw
    rw [if_pos hlen]
    exact ⟨h, rfl, _, ht⟩
  · rw [if_pos (by simp [hlen])] at hw
    subst hw
    rw [if_neg hlen]
    exact ⟨h, t, ht⟩

/-- **Taking the next name**, after which the variables hold its line; at the end of the directory
they hold what they did. -/
theorem wp_nlstNext {l : Listing} {llen : ℕ} {held : Option (List Byte)}
    (hheld : HoldsLine lpath len l held) :
    wp os (filesystemListDirPerLine lpath llen l.buf pathLenMax l.bufLen (len ≠ 0) l.d : ServerM _)
      (fun out s' => out.retval = 0 → ∃ dir N, s' = ⟨s.data, N ++ s.log⟩ ∧
        Streams lpath l.d dir N ∧ dataLines N = [] ∧ out.cookie = dir.next ∧
        HoldsLine lpath len { l with buf := out.buf, bufLen := out.bufLen, d := out.cookie }
          (dir.entries.head?.or held)) E s := by
  unfold filesystemListDirPerLine
  refine wp_ite (fun _ => ?_) (fun _ h => absurd h (by simp))
  refine wp_seq (R := fun d s' => ∀ dir, d = some dir → ∃ N, s' = ⟨s.data, N ++ s.log⟩ ∧
    Streams lpath l.d dir N ∧ dataLines N = []) ?_ ?_
  · cases hd : l.d with
    | none =>
      refine (wp_call _ _).mpr fun dir hdir => ⟨[.opendir lpath (some dir)], ?_, ⟨?_, ?_⟩, rfl⟩
      · rw [hdir]
        rfl
      · exact fun d h => absurd h (by simp)
      · simp
    | some d =>
      intro dir hdir
      obtain rfl := Option.some.inj hdir
      exact ⟨[], rfl, ⟨fun d0 h => Option.some.inj h, by simp⟩, rfl⟩
  rintro (_ | dir) s1 hstream
  · exact fun h => absurd h (by simp)
  · obtain ⟨N, rfl, hstreams, hlines⟩ := hstream dir rfl
    refine (wp_bind _ _).mpr ((wp_bind _ _).mpr ((wp_emit _).mpr ((wp_pure _).mpr ?_)))
    have hread : ∀ {e : Event}, (∀ p d, e ≠ .opendir p (some d)) → ∀ {M : List Event},
        Streams lpath l.d dir M → Streams lpath l.d dir (e :: M) := by
      intro e he M hM
      refine ⟨hM.same, fun p d => ?_⟩
      rw [List.mem_cons, hM.opened, or_iff_right]
      exact fun h => he p d h.symm
    have hnames : Streams lpath l.d dir (.readdir dir.id dir.entries.head? :: N) :=
      hread (by simp) hstreams
    cases hent : dir.entries with
    | nil =>
      -- the end of the directory: the stream is closed, and the buffer keeps the last line
      refine fun _ => ⟨dir, .closedir dir.id :: .readdir dir.id dir.entries.head? :: N, ?_,
        hread (by simp) hnames, ?_, ?_, ?_⟩
      · rw [hent]
        rfl
      · simpa [dataLines, Event.dataLine] using hlines
      · rw [Dir.next, if_pos hent]
      · simpa [HoldsLine, hent] using hheld
    | cons name rest =>
      refine wp_ite (fun hfit => ?_) (fun _ h => absurd h (by simp))
      refine fun _ => ⟨dir, .readdir dir.id dir.entries.head? :: N, ?_, hnames, ?_, ?_, ?_⟩
      · rw [hent]
        rfl
      · simpa [dataLines, Event.dataLine] using hlines
      · have hnext : dir.next = some ⟨dir.id, rest⟩ := by
          rw [Dir.next, if_neg (by simp [hent]), hent]
          rfl
        exact hnext.symm
      · have hhead : dir.entries.head?.or held = some name := by
          rw [hent]
          rfl
        rw [hhead]
        exact holdsLine_snprintf rfl hfit

/-! ### The loop -/

/-- The entries that the lines are about, when the variables hold the given one first: every name
in order, and at the end the one that is held then. -/
def shown (held : Option (List Byte)) : List (List Byte) → List (Option (List Byte))
  | [] => [held]
  | name :: rest => some name :: shown (some name) rest

theorem length_shown (names : List (List Byte)) : ∀ held, (shown held names).length
    = names.length + 1 := by
  induction names with
  | nil => exact fun _ => rfl
  | cons name rest ih => exact fun _ => congrArg (· + 1) (ih _)

/-- **The last name is shown twice.** -/
theorem shown_append (names : List (List Byte)) (last : List Byte) : ∀ held,
    shown held (names ++ [last]) = (names ++ [last, last]).map some := by
  induction names with
  | nil => exact fun _ => rfl
  | cons name rest ih => exact fun _ => congrArg (some name :: ·) (ih _)

/-- The records of a loop on the stream `dir`, with the variables holding the given entry before:
one line for each entry that is shown. -/
def Shows (root lpath : List Byte) (len : ℕ) (held : Option (List Byte)) (dir : Dir)
    (N : List Event) : Prop :=
  List.Forall₂ (ShowsLine root lpath len) (dataLines N) (shown held dir.entries)

/-- What an iteration prints and what the others print. -/
theorem Shows.cons {held : Option (List Byte)} {dir : Dir} {N M : List Event} {bytes : List Byte}
    (hN : dataLines N = [bytes])
    (hline : ShowsLine root lpath len bytes (dir.entries.head?.or held))
    (hM : ∀ d, dir.next = some d → Shows root lpath len (dir.entries.head?.or held) d M)
    (hend : dir.next = none → M = []) : Shows root lpath len held dir (M ++ N) := by
  unfold Shows at hM ⊢
  rw [dataLines_append, hN]
  cases hent : dir.entries with
  | nil =>
    rw [hend (by rw [Dir.next, if_pos hent])]
    rw [hent] at hline
    exact .cons hline .nil
  | cons name rest =>
    have hnext : dir.next = some ⟨dir.id, rest⟩ := by
      rw [Dir.next, if_neg (by simp [hent]), hent]
      rfl
    have h := hM _ hnext
    rw [hent] at hline h
    exact .cons hline h

/-- **One iteration** prints one line. -/
theorem wp_nlstBody_lines {l : Listing} {llen : ℕ} {held : Option (List Byte)}
    (hpath : Requested s.data.rootPath lpath len) (hroot : s.data.rootPath.length < pathLenMax)
    (hheld : HoldsLine lpath len l held) :
    wp os (nlstBody lpath llen len l) (fun out s' => out.1 = 0 → ∃ dir N bytes,
      s' = ⟨s.data, N ++ s.log⟩ ∧ Streams lpath l.d dir N ∧ dataLines N = [bytes] ∧
      ShowsLine s.data.rootPath lpath len bytes (dir.entries.head?.or held) ∧
      HoldsLine lpath len out.2 (dir.entries.head?.or held) ∧ out.2.d = dir.next) E s := by
  rw [nlstBody_eq]
  refine wp_seq (wp_nlstNext hheld) ?_
  rintro out s1 hnext
  refine wp_ite (fun hne h => absurd h hne) (fun h0 => ?_)
  obtain ⟨dir, N, rfl, hstreams, hlines, hcookie, hholds⟩ := hnext (not_not.mp h0)
  refine wp_mono (wp_nlstSend hpath hroot hholds) ?_ fun _ h => h
  rintro out' _ ⟨hd, hsent⟩ h0'
  obtain ⟨bytes, w, rfl, hline, hholds'⟩ := hsent h0'
  refine ⟨dir, .write .transferClient s.data.transferClientSock bytes w :: N, bytes, rfl,
    ⟨hstreams.same, fun p d => ?_⟩, ?_, hline, hholds', hd.trans hcookie⟩
  · rw [List.mem_cons, hstreams.opened, or_iff_right (by simp)]
  · simpa [dataLines, Event.dataLine] using hlines

theorem Dir.next_length {dir d : Dir} (h : dir.next = some d) :
    d.entries.length < dir.entries.length := by
  unfold Dir.next at h
  split at h
  · exact absurd h (by simp)
  · next hne =>
    obtain rfl := Option.some.inj h
    have := List.length_pos_iff.mpr hne
    rw [List.length_tail]
    omega

/-- **The iterations behind the first** show what is left in the stream, by induction on that. -/
theorem wp_nlstWhile_lines {llen : ℕ} : ∀ {fuel : ℕ} {l : Listing} {s : St}
    {held : Option (List Byte)}, (∀ d, l.d = some d → d.entries.length < fuel) →
    Requested s.data.rootPath lpath len → s.data.rootPath.length < pathLenMax →
    HoldsLine lpath len l held →
    wp os (nlstWhile lpath llen len fuel l) (fun r s' => r = 0 → ∃ N, s' = ⟨s.data, N ++ s.log⟩ ∧
      (∀ p d, .opendir p (some d) ∉ N) ∧
      (∀ d, l.d = some d → Shows s.data.rootPath lpath len held d N) ∧
      (l.d = none → N = [])) E s := by
  intro fuel
  induction fuel with
  | zero =>
    intro l s held hfuel _ _ _
    unfold nlstWhile
    refine wp_ite (fun hd _ => ⟨[], rfl, by simp, by simp [hd], fun _ => rfl⟩) (fun hd => ?_)
    obtain ⟨d, hd⟩ := Option.ne_none_iff_exists'.mp hd
    exact absurd (hfuel d hd) (Nat.not_lt_zero _)
  | succ fuel ih =>
    intro l s held hfuel hpath hroot hheld
    unfold nlstWhile
    refine wp_ite (fun hd _ => ⟨[], rfl, by simp, by simp [hd], fun _ => rfl⟩) (fun hd => ?_)
    obtain ⟨d, hd⟩ := Option.ne_none_iff_exists'.mp hd
    refine wp_seq (wp_nlstBody_lines hpath hroot hheld) ?_
    rintro ⟨r, l'⟩ s1 hbody
    refine wp_ite (fun hne h => absurd h hne) (fun h0 => ?_)
    obtain ⟨dir, N, bytes, rfl, hstreams, hN, hline, hholds, hnext⟩ := hbody (not_not.mp h0)
    obtain rfl := hstreams.same d hd
    -- the next iteration starts on a stream with one name less
    refine wp_mono (ih (fun d' hd' => ?_) hpath hroot hholds) ?_ fun _ h => h
    · have hlt := Dir.next_length (hnext.symm.trans hd')
      have := hfuel dir hd
      omega
    · rintro r _ hrest hr
      obtain ⟨M, rfl, hopen, hshows, hend⟩ := hrest hr
      refine ⟨M ++ N, by simp, fun p d0 hmem => ?_, fun d0 hd0 => ?_, fun h => ?_⟩
      · rcases List.mem_append.mp hmem with hmem | hmem
        · exact hopen p d0 hmem
        · exact absurd ((hstreams.opened p d0).mp hmem).1 (by simp [hd])
      · obtain rfl := Option.some.inj (hd.symm.trans hd0)
        exact .cons hN hline (fun d' hd' => hshows d' (hnext.trans hd'))
          fun h => hend (hnext.trans h)
      · exact absurd h (by simp [hd])

/-- **A listing that succeeds** has opened one directory, and shows its entries. -/
theorem wp_nlstLoop_lines {llen : ℕ} (hpath : Requested s.data.rootPath lpath len)
    (hroot : s.data.rootPath.length < pathLenMax) :
    wp os (nlstLoop lpath llen len) (fun r s' => r = 0 → ∃ dir N, s' = ⟨s.data, N ++ s.log⟩ ∧
      (∀ p d, .opendir p (some d) ∈ N ↔ p = lpath ∧ d = dir) ∧
      Shows s.data.rootPath lpath len none dir N) E s := by
  unfold nlstLoop
  refine wp_seq (@wp_nlstBody_lines _ _ _ _ _ _ _ none hpath hroot (by simp [HoldsLine])) ?_
  rintro ⟨r, l⟩ s1 hbody
  refine wp_ite (fun hne h => absurd h hne) (fun h0 => ?_)
  obtain ⟨dir, N, bytes, rfl, hstreams, hN, hline, hholds, hnext⟩ := hbody (not_not.mp h0)
  refine wp_mono (wp_nlstWhile_lines (fun d hd => ?_) hpath hroot hholds) ?_ fun _ h => h
  · simp [hd]
  · rintro r _ hrest hr
    obtain ⟨M, rfl, hopen, hshows, hend⟩ := hrest hr
    refine ⟨dir, M ++ N, by simp, fun p d => ?_, ?_⟩
    · rw [List.mem_append, or_iff_right (hopen p d), hstreams.opened]
      simp
    · exact .cons hN hline (fun d' hd' => hshows d' (hnext.trans hd')) fun h => hend (hnext.trans h)

/-! ### The handler -/

/-- The transfer of `NLST` in more detail: if it succeeds, one directory was opened, and what is
sent shows its entries. -/
def enumerating (root : List Byte) (len : ℕ) (lpath : List Byte) :
    Int → Log → Int → List Event → Prop :=
  fun _ _ retval D => retval = 0 → ∃ dir, (∀ p d, .opendir p (some d) ∈ D ↔ p = lpath ∧ d = dir) ∧
    Shows root lpath len none dir D

theorem Listable.isRequested {args : List Byte} {L : List Event}
    (h : Listable os s args len 0 lpath L) (hd : Configured s.data) :
    Requested s.data.rootPath lpath len := by
  intro hlen
  generalize h0 : (0 : Int) = r0 at h
  cases h with
  | failed hne => exact absurd h0.symm hne
  | current hlen0 => exact absurd hlen0 hlen
  | requested hp ha _ _ htest =>
    obtain ⟨hr, hn⟩ := os.realpath_canonical ha
    rw [strncpy_zero (by omega), List.append_assoc,
      absPathIsNotAboveRootPath_eq_zero_iff hd.length_eq hr.length_pos] at htest
    exact ⟨hr, hn, htest⟩

theorem wp_commandHandlerNlst_lines {args : List Byte} (hd : Configured s.data) :
    wp os (commandHandlerNlst args len) (fun retval s' => ∃ r0 lpath L,
      Listable os s args len r0 lpath L ∧
      Transferred os (enumerating s.data.rootPath len lpath) r0 ⟨s.data, L ++ s.log⟩ retval s')
      (Killed os s) s := by
  refine wp_commandHandlerNlst_loop (enumerating s.data.rootPath len) fun llen hL x log => ?_
  refine wp_mono (wp_and wp_nlstLoop
    (wp_nlstLoop_lines (E := Killed os s) (hL.isRequested hd) hd.length_lt)) ?_ fun _ h => h.1
  rintro r _ ⟨⟨D, -, rfl⟩, hlines⟩
  refine ⟨D, fun h0 => ?_, rfl⟩
  obtain ⟨dir, N, hN, hopen, hshows⟩ := hlines h0
  obtain rfl : D = N := List.append_cancel_right (congrArg Logged.log hN)
  exact ⟨dir, hopen, hshows⟩

/-! ### What is listed -/

/-- Between `s` and `s'` the directory `dir` is opened under `path` and all writes on the data
connection are complete, and then the reply is a 226. -/
structure Lists (s s' : St) (path : List Byte) (dir : Dir) (N : List Event) : Prop where
  answered : ∃ w, s'.log = .write .client s.data.clientSock
    (ascii "226 Directory send OK." ++ crlf) w :: (N ++ s.log)
  opened : .opendir path (some dir) ∈ N
  complete : ∀ fd bytes w, .write .transferClient fd bytes w ∈ N → w = bytes.length

/-- An entry of a directory behind the path of that. -/
def entryPath (path name : List Byte) : List Byte :=
  if path = [47] then 47 :: name else path ++ 47 :: name

/-- The lines are those of the names: the bare names without an argument, and otherwise each
behind the server path of the directory. -/
def ListsExactly (root path : List Byte) (len : ℕ) (names lines : List (List Byte)) : Prop :=
  lines = names.map fun name =>
    (if len = 0 then name else entryPath (serverPathOf root path) name) ++ crlf

instance (root path : List Byte) (len : ℕ) (names lines : List (List Byte)) :
    Decidable (ListsExactly root path len names lines) := inferInstanceAs (Decidable (_ = _))

/-- The records neither write to the data connection nor open a directory. -/
def Unlisted (N : List Event) : Prop :=
  ∀ e ∈ N, e.dataLine = [] ∧ ∀ p d, e ≠ .opendir p d

theorem Unlisted.of_kind {ks : List Kind} {N : List Event} (h : OfKind ks N) (hw : .write ∉ ks)
    (hd : .dir ∉ ks) : Unlisted N := by
  intro e he
  have hkind := h e he
  cases e <;> first | exact absurd hkind hw | exact absurd hkind hd | exact ⟨rfl, by simp⟩

theorem Announces.unlisted {c r : Int} {P : List Event} (h : Announces c r P) : Unlisted P := by
  cases h <;> simp [Unlisted, Event.dataLine]

theorem Unlisted.append {N M : List Event} (h : Unlisted N) (h' : Unlisted M) : Unlisted (N ++ M) :=
  fun e he => (List.mem_append.mp he).elim (h e) (h' e)

theorem Unlisted.dataLines {N : List Event} (h : Unlisted N) : dataLines N = [] :=
  chronicle_of_silent fun e he => (h e he).1

theorem Unlisted.not_opendir {N : List Event} (h : Unlisted N) {p : List Byte} {d : Option Dir} :
    .opendir p d ∉ N := fun he => (h _ he).2 p d rfl

/-- The text the code builds is the server path of the directory with the name behind it. -/
theorem lineText_eq (h : Requested root lpath len) (hroot : root ≠ []) :
    lineText root lpath len name
      = if len = 0 then name else entryPath (serverPathOf root lpath) name := by
  unfold lineText
  by_cases hlen : len = 0
  · rw [if_pos hlen, if_pos hlen]
  · rw [if_neg hlen, if_neg hlen, serverPathOf_of_ne (h.path hlen).2]
    obtain ⟨hc, -, rest, rfl⟩ := h hlen
    rw [List.append_assoc, List.drop_left' rfl]
    by_cases hrest : rest = []
    · subst hrest
      simp [serverPathOf, entryPath]
    · have hserver : serverPathOf root (root ++ rest) = rest := by
        rw [serverPathOf_of_ne (by simpa using hrest), List.drop_left' rfl]
      -- a canonical path does not end with a separator
      have hne : rest ≠ [47] := by
        rintro rfl
        exact hroot hc.eq_nil_of_append
      rw [hserver, entryPath, if_neg hne]

/-- A transfer that succeeds has listed the directory, and there is nothing else of note. -/
theorem Transferring.enumerates {d : ServerData} {a r0 x : Int} {log : Log} {T : List Event}
    (h : Transferring (enumerating root len lpath) d a log r0 0 x T) : r0 = 0 ∧ ∃ D P dir,
      T = D ++ P ∧ Unlisted P ∧ (∀ p d, .opendir p (some d) ∈ D ↔ p = lpath ∧ d = dir) ∧
      Shows root lpath len none dir D := by
  generalize hr : (0 : Int) = r at h
  cases h with
  | skipped hne => exact absurd hr.symm hne
  | unconnected => exact absurd hr (by decide)
  | unannounced _ _ _ hne => exact absurd hr.symm hne
  | transferred _ _ hP hD =>
    obtain ⟨dir, hopen, hshows⟩ := hD hr.symm
    refine ⟨hr.symm ▸ rfl, _, _, dir, rfl, hP.unlisted.append ?_, hopen, hshows⟩
    simp [Unlisted, Event.dataLine]

/-- **What was sent when the reply is a 226**: the lines of the entries that are shown. -/
theorem Transferred.enumerates {path : List Byte} {dir : Dir} {N L : List Event} {r0 r : Int}
    {s' : St} (hL : Lookups L)
    (h : Transferred os (enumerating root len lpath) r0 ⟨s.data, L ++ s.log⟩ r s')
    (hlists : Lists s s' path dir N) : r0 = 0 ∧ path = lpath ∧ Shows root lpath len none dir N := by
  obtain ⟨⟨w, hlog⟩, hopened, -⟩ := hlists
  obtain @⟨retval, x, w', T, X, Y, text, hT, hX, hY, ht⟩ := h
  obtain ⟨hwrite, hrest⟩ := List.cons.inj hlog
  obtain ⟨-, -, rfl, -⟩ := Event.write.inj hwrite
  obtain rfl : retval = 0 := ht.elim And.left fun h => absurd h.2 (by decide)
  obtain ⟨rfl, D, P, dir', rfl, hP, hopen, hshows⟩ := hT.enumerates
  have hYX : Unlisted (Y ++ X) := Unlisted.append (.of_kind hY.ofKind (by decide) (by decide))
    (.of_kind hX.ofKind (by decide) (by decide))
  have hPL : Unlisted (P ++ L) := hP.append (.of_kind hL.ofKind (by decide) (by decide))
  obtain rfl : N = (Y ++ X) ++ (D ++ (P ++ L)) := by
    refine List.append_cancel_right (hrest.symm.trans ?_)
    simp
  rw [List.mem_append, or_iff_right hYX.not_opendir, List.mem_append,
    or_iff_left hPL.not_opendir, hopen] at hopened
  obtain ⟨rfl, rfl⟩ := hopened
  refine ⟨rfl, rfl, ?_⟩
  unfold Shows
  rw [dataLines_append, dataLines_append, hYX.dataLines, hPL.dataLines, List.nil_append,
    List.append_nil]
  exact hshows

/-- Lines of entries that fit are what they should be. -/
theorem eq_map_of_shows {names : List (List Byte)}
    (hfits : ∀ name ∈ names, Fits root lpath len name) :
    ∀ {lines : List (List Byte)},
      List.Forall₂ (ShowsLine root lpath len) lines (names.map some) →
      lines = names.map fun name => lineText root lpath len name ++ crlf := by
  induction names with
  | nil =>
    intro lines h
    cases h
    rfl
  | cons name names ih =>
    intro lines h
    cases h with
    | cons hline hrest =>
      rw [hline name rfl (hfits name (by simp)), ih (fun n hn => hfits n (by simp [hn])) hrest]
      rfl

/-- The lines that are shown of entries that fit. -/
theorem Shows.exact {dir : Dir} {N : List Event} {names : List (List Byte)} {last : List Byte}
    (h : Shows root lpath len none dir N) (hreq : Requested root lpath len) (hroot : root ≠ [])
    (hentries : dir.entries = names ++ [last])
    (hfits : ∀ name ∈ dir.entries, Fits root lpath len name) :
    ListsExactly root lpath len (names ++ [last, last]) (dataLines N) := by
  unfold Shows at h
  rw [hentries, shown_append] at h
  have hfits' : ∀ name ∈ names ++ [last, last], Fits root lpath len name := by
    rw [hentries] at hfits
    intro name hname
    exact hfits name (by simpa using hname)
  rw [ListsExactly, eq_map_of_shows hfits' h]
  exact List.map_congr_left fun name _ => by rw [lineText_eq hreq hroot]

/-- **A listing that is answered with 226 has one line too many**: what is sent are not the lines
of the entries.  When these have room, what is sent are their lines and that of the last entry
again. -/
theorem nlst_repeats_last (h : Reachable os argv s) {args : List Byte} {s1 : St}
    (hcall : Called os s .nlst args len s1) :
    wp os (commandHandle .nlst args len) (fun _ s2 => ∀ path dir N, Lists s1 s2 path dir N →
      ¬ ListsExactly s1.data.rootPath path len dir.entries (dataLines N) ∧
      ((∀ name ∈ dir.entries, Fits s1.data.rootPath path len name) →
        ∀ names last, dir.entries = names ++ [last] →
          ListsExactly s1.data.rootPath path len (names ++ [last, last]) (dataLines N)))
      (Killed os s1) s1 := by
  have hd : Configured s1.data := hcall.data ▸ h.sound.configured
  refine wp_mono (wp_commandHandlerNlst_lines hd) ?_ fun _ h => h
  rintro r s2 ⟨r0, lpath, L, hL, htrans⟩ path dir N hlists
  obtain ⟨rfl, rfl, hshows⟩ := htrans.enumerates hL.lookups hlists
  refine ⟨fun hexact => ?_, fun hfits names last hentries =>
    hshows.exact (hL.isRequested hd) hd.canonical.ne_nil hentries hfits⟩
  -- there is a line for each entry and one more
  have hlen := hshows.length_eq
  rw [length_shown, hexact, List.length_map] at hlen
  omega

/-- The call of `CommandHandlerNlst` for a request without an argument. -/
theorem called_nlst (hcreated : s.data.isServerSocketCreated = true)
    (hconnected : s.data.isConnected = true) (hread : received os s = some (ascii "NLST" ++ crlf)) :
    Called os s .nlst [] 0 (calledState (lineState s (ascii "NLST" ++ crlf))
      (lineBuffer (ascii "NLST" ++ crlf)) 4 (ascii "NLST") .nlst) :=
  Called.mk hcreated hconnected hread (by decide)
    (show commandFind _ = some (ascii "NLST", .nlst) by decide)

/-- A write to the data connection, if it is one, that took all it was given. -/
def Event.isComplete : Event → Bool
  | .write .transferClient _ bytes w => decide (w = bytes.length)
  | _ => true

theorem complete_of_all {N : List Event} (h : N.all Event.isComplete = true) {fd : Int}
    {bytes : List Byte} {w : Int} (hmem : .write .transferClient fd bytes w ∈ N) :
    w = bytes.length := of_decide_eq_true (List.all_eq_true.mp h _ hmem)

/-- A machine on which the client asks for the listing of a directory with three entries. -/
def entriesHost : Host :=
  { nodes := [Host.srv, Host.node ["srv", "a"] .regular [] Host.valid_a, Host.docs,
      Host.node ["srv", "f"] .regular [] Host.valid_f],
    reads := [some (ascii "PASV" ++ crlf), some (ascii "NLST" ++ crlf)] }

/-- What it contains. -/
def entriesDir : Dir := ⟨0, [ascii "a", ascii "docs", ascii "f"]⟩

/-- The state in which it is asked for. -/
def entriesAsked : St := Host.run entriesHost.os 3 (Host.start entriesHost.os Host.argv)

/-- The state in which `CommandHandlerNlst` is called. -/
def entriesCalled : St :=
  calledState (lineState entriesAsked (ascii "NLST" ++ crlf)) (lineBuffer (ascii "NLST" ++ crlf)) 4
    (ascii "NLST") .nlst

theorem entries_called : Called entriesHost.os entriesAsked .nlst [] 0 entriesCalled :=
  called_nlst (by decide +kernel) (by decide +kernel) (by decide +kernel)

/-- The state in which it returns. -/
def entriesEnd : St := (commandHandle .nlst [] 0 entriesHost.os entriesCalled).2

theorem entries_run : commandHandle .nlst [] 0 entriesHost.os entriesCalled
    = (some 0, entriesEnd) :=
  Prod.ext (by decide +kernel) (by rw [entriesEnd])

/-- What it did before its reply. -/
def entriesRecords : List Event :=
  (entriesEnd.log.drop 1).take (entriesEnd.log.length - 1 - entriesCalled.log.length)

theorem entries_lists :
    Lists entriesCalled entriesEnd (ascii "/srv") entriesDir entriesRecords :=
  ⟨⟨24, by decide +kernel⟩, by decide +kernel, fun _ _ _ => complete_of_all (by decide +kernel)⟩

/-- There are three entries, and four lines are sent. -/
theorem nlst_repeats_last_entries : entriesCalled.data.rootPath = ascii "/srv" ∧
    ¬ ListsExactly (ascii "/srv") (ascii "/srv") 0 entriesDir.entries (dataLines entriesRecords) ∧
    ListsExactly (ascii "/srv") (ascii "/srv") 0 [ascii "a", ascii "docs", ascii "f", ascii "f"]
      (dataLines entriesRecords) := by
  have hroot : entriesCalled.data.rootPath = ascii "/srv" := by decide +kernel
  have h := of_wp_run (nlst_repeats_last (Host.reachable_run (n := 3) (by decide +kernel))
    entries_called) entries_run _ _ _ entries_lists
  rw [hroot] at h
  have hfits : ∀ name ∈ entriesDir.entries, Fits (ascii "/srv") (ascii "/srv") 0 name := by
    intro name hname
    exact ⟨by revert name; decide, by revert name; decide, by revert name; decide⟩
  exact ⟨hroot, h.1, h.2 hfits [ascii "a", ascii "docs"] (ascii "f") rfl⟩

/-- The state in which the client asks for the listing of `/srv`. -/
def listingAsked : St := Host.run listingHost.os 3 (Host.start listingHost.os Host.argv)

/-- The state in which `CommandHandlerNlst` is called there. -/
def listingCalled : St :=
  calledState (lineState listingAsked (ascii "NLST" ++ crlf)) (lineBuffer (ascii "NLST" ++ crlf)) 4
    (ascii "NLST") .nlst

theorem listing_called : Called listingHost.os listingAsked .nlst [] 0 listingCalled :=
  called_nlst (by decide +kernel) (by decide +kernel) (by decide +kernel)

/-- The state in which the handler has returned. -/
def listingEnd : St := (commandHandle .nlst [] 0 listingHost.os listingCalled).2

/-- What it did before its reply. -/
def listingRecords : List Event := (listingEnd.log.drop 1).take 12

/-- **The directory `/srv` has the entry `a`, and two lines are sent.** -/
theorem entry_listed_twice : ∃ s args len s1 r s2 path dir N, Reachable listingHost.os Host.argv s ∧
    Called listingHost.os s .nlst args len s1 ∧
    commandHandle .nlst args len listingHost.os s1 = (some r, s2) ∧ Lists s1 s2 path dir N ∧
    dir.entries = [[97]] ∧ dataLines N = [97 :: crlf, 97 :: crlf] ∧
    ¬ ListsExactly s1.data.rootPath path len dir.entries (dataLines N) := by
  refine ⟨_, _, _, _, 0, listingEnd, ascii "/srv", ⟨0, [[97]]⟩, listingRecords,
    Host.reachable_run (by decide +kernel), listing_called, Prod.ext (by decide +kernel) rfl,
    ⟨⟨24, by decide +kernel⟩, by decide +kernel, fun _ _ _ => complete_of_all (by decide +kernel)⟩,
    rfl, by decide +kernel, by decide +kernel⟩

end VsFtp
