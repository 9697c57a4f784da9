import Mathlib.Data.List.Find
import VsFtp.Host
import VsFtp.Invariants
import VsFtp.Printing

/-!
# Server paths and real paths

`VSFTPServerServerPathToRealPath` puts the root path in front of an absolute server path, in
an array of `PATH_LEN_MAX` bytes.  It does not look whether both fit.
`VSFTPServerRealPathToServerPath` takes the root path off again, by skipping the bytes the two
have in common: of the path below the root `/` this takes the separator as well.

## Main definitions

* `ResolvesWhole` — the whole path is resolved, or nothing is.
* `serverPathOf` — the server path of a real path.
* `shownPath` — the server path of any text, which may be something else than a path.
* `RoundTrips` — a real path is made a server path and resolved to itself again.
* `LeadsBack` — `CWD` leads to where `PWD` said the client was.
* `ComesBack`, `PrintsRest` — for which paths they do.

## Main results

* `absolute_path_whole_iff` — **an absolute path is resolved as a whole if and only if it fits
  behind the root path.**
* `long_path_resolved` — a path that does not fit and is resolved all the same.
* `path_mapping_round_trip_iff` — **a path in the tree makes the round trip and `PWD` leads back to
  it if and only if it is the root path and has room for a separator, or lies below a root path
  other than `/`, and its rest behind the root path is printed as it is.**
* `file_below_slash` — a path that does not come back.
-/

namespace VsFtp

open CString Prog

attribute [local irreducible] serverSendReply helpText

variable {os : Os} {s : St} {E : St → Prop}

/-! ### The array of an absolute path -/

/-- **What the array contains**: the root path, as much of the path as fits, and NULs. -/
theorem absoluteBuf_eq {d : ServerData} (hd : Configured d) (path : List Byte) :
    absoluteBuf d path = d.rootPath ++ path.take (pathLenMax - d.rootPath.length) ++
      List.replicate (pathLenMax - d.rootPath.length - path.length) 0 := by
  have hlt := hd.length_lt
  have hroot := strncpy_zero hlt.le []
  rw [List.drop_nil, List.append_nil] at hroot
  rw [absoluteBuf, hroot, hd.length_eq, sizeSub_of_le hlt.le (by decide), strncpy, overwrite,
    List.take_left' rfl, List.drop_eq_nil_of_le, List.append_nil, List.append_assoc]
  simp only [List.length_append, List.length_take, List.length_replicate]
  omega

theorem absoluteBuf_length {d : ServerData} (hd : Configured d) (path : List Byte) :
    (absoluteBuf d path).length = pathLenMax := by
  have hlt := hd.length_lt
  rw [absoluteBuf_eq hd]
  simp only [List.length_append, List.length_take, List.length_replicate]
  omega

/-- A path that fits behind the root path is stored with a NUL. -/
theorem absoluteBuf_fits {d : ServerData} (hd : Configured d) {path : List Byte}
    (hfit : (d.rootPath ++ path).length < pathLenMax) :
    ∃ pad, absoluteBuf d path = d.rootPath ++ path ++ 0 :: pad := by
  rw [List.length_append] at hfit
  obtain ⟨k, hk⟩ : ∃ k, pathLenMax - d.rootPath.length - path.length = k + 1 :=
    ⟨pathLenMax - d.rootPath.length - path.length - 1, by omega⟩
  exact ⟨List.replicate k 0, by
    rw [absoluteBuf_eq hd, hk, List.take_of_length_le (by omega), List.replicate_succ]⟩

/-- A path that does not fit is cut off, and there is no NUL. -/
theorem absoluteBuf_overflow {d : ServerData} (hd : Configured d) {path : List Byte}
    (hlong : pathLenMax ≤ (d.rootPath ++ path).length) :
    absoluteBuf d path = d.rootPath ++ path.take (pathLenMax - d.rootPath.length) := by
  rw [List.length_append] at hlong
  rw [absoluteBuf_eq hd, show pathLenMax - d.rootPath.length - path.length = 0 by omega,
    List.replicate_zero, List.append_nil]

/-- Whether it fits or not, there is something to resolve. -/
theorem strnlen_absoluteBuf_pos {d : ServerData} (hd : Configured d) {path : List Byte}
    (hn : NoNul path) : 0 < strnlen (absoluteBuf d path) pathLenMax := by
  have hpos := hd.canonical.length_pos
  by_cases hfit : (d.rootPath ++ path).length < pathLenMax
  · obtain ⟨pad, hpad⟩ := absoluteBuf_fits hd hfit
    rw [strnlen, List.take_of_length_le (absoluteBuf_length hd path).le, hpad,
      cstr_append_nul (hd.noNul.append hn), List.length_append]
    omega
  · rw [strnlen_of_le ((absoluteBuf_overflow hd (not_lt.mp hfit)) ▸ hd.noNul.append (hn.take _))
      (absoluteBuf_length hd path).ge]
    decide

/-- What is resolved starts with the root path, so it is absolute. -/
theorem isAbsPath_absolute {d : ServerData} (hd : Configured d) (path behind : List Byte) :
    filesystemIsAbsPath (cstr (absoluteBuf d path ++ behind)) = 0 := by
  obtain ⟨t, ht⟩ := hd.canonical.eq_cons
  rw [absoluteBuf_eq hd, ht]
  rfl

/-! ### Absolute paths are resolved whole -/

/-- `VSFTPServerServerPathToRealPath`, called with a path that starts with a separator: if the
root path and the path fit into the array, they are stored there with a NUL and resolved; if
they do not, the function fails, and resolves and stores nothing. -/
def ResolvesWhole (os : Os) (s : St) (path : List Byte) (len : ℕ) (realPath : List Byte)
    (size realPathLen : ℕ) : Prop :=
  wp os (serverServerPathToRealPath path len realPath size realPathLen) (fun out s' =>
    if (s.data.rootPath ++ path).length < pathLenMax then
      (∃ pad, absoluteBuf s.data path = s.data.rootPath ++ path ++ 0 :: pad) ∧
        (absoluteBuf s.data path).length = pathLenMax ∧
        ∃ r, s' = ⟨s.data, .realpath (s.data.rootPath ++ path) r :: s.log⟩
    else out.retval ≠ 0 ∧ out.buf = realPath ∧ out.len = realPathLen ∧ s' = s) (fun _ => False) s

/-- **Something is resolved in any case**: the string in the array, with what lies behind. -/
theorem wp_serverServerPathToRealPath_abs {path realPath : List Byte} {len size realPathLen : ℕ}
    (hd : Configured s.data) (hn : NoNul path) (habs : filesystemIsAbsPath path = 0)
    (hlen : 0 < len) (hsize : 0 < size) :
    wp os (serverServerPathToRealPath path len realPath size realPathLen) (fun _ s' => ∃ r,
      s' = ⟨s.data, .realpath (cstr (absoluteBuf s.data path ++ os.behind s.log)) r :: s.log⟩)
      E s := by
  unfold serverServerPathToRealPath
  rw [if_pos ⟨hlen, hsize⟩, if_pos habs]
  refine (wp_bind _ _).mpr (wp_getData.mpr (wp_seq wp_readString ?_))
  rintro _ s1 ⟨rfl, rfl⟩
  unfold filesystemGetRealPath
  rw [if_pos ⟨strnlen_absoluteBuf_pos hd hn, hsize⟩, realPathTarget,
    if_pos (isAbsPath_absolute hd _ _)]
  refine (wp_bind _ _).mpr ((wp_call _ _).mpr ?_)
  generalize os.realpath s1.log _ = r
  cases r with
  | none => exact ⟨none, rfl⟩
  | some r => exact wp_ite (fun _ => ⟨some r, rfl⟩) (fun _ => ⟨some r, rfl⟩)

/-- **An absolute path is resolved as a whole, or not at all, if and only if it fits** behind
the root path. -/
theorem absolute_path_whole_iff {path realPath : List Byte} {len size realPathLen : ℕ}
    (hd : Configured s.data) (hn : NoNul path) (habs : filesystemIsAbsPath path = 0)
    (hlen : 0 < len) (hsize : 0 < size) :
    ResolvesWhole os s path len realPath size realPathLen ↔
      (s.data.rootPath ++ path).length < pathLenMax := by
  obtain ⟨out, s', hrun, r, rfl⟩ := exists_run_of_wp
    (@wp_serverServerPathToRealPath_abs os s _ path realPath len size realPathLen hd hn habs hlen
      hsize)
  rw [ResolvesWhole, wp_of_run hrun]
  constructor
  · intro h
    by_contra hlong
    rw [if_neg hlong] at h
    -- the call is in the log
    have hlog := congrArg (List.length ∘ Logged.log) h.2.2.2
    simp at hlog
  · intro hfit
    rw [if_pos hfit]
    obtain ⟨pad, hpad⟩ := absoluteBuf_fits hd hfit
    refine ⟨⟨pad, hpad⟩, absoluteBuf_length hd path, r, ?_⟩
    rw [hpad, List.append_assoc, List.cons_append, cstr_append_nul (hd.noNul.append hn)]

/-- The longest path that is resolved below `/srv`. -/
theorem absolute_path_whole_longest : ResolvesWhole Host.plain.os
    (Host.start Host.plain.os Host.argv) (47 :: List.replicate 250 97) 251 [] pathLenMax 0 := by
  have hroot : (Host.start Host.plain.os Host.argv).data.rootPath.length = 4 := by decide +kernel
  have hconf : Configured (Host.start Host.plain.os Host.argv).data :=
    (Host.reachable_run (n := 0) (by decide +kernel)).sound.configured
  have hmax : pathLenMax = 256 := rfl
  have hname : NoNul (List.replicate 250 97) := noNul_replicate (by decide) _
  have hlen : (List.replicate 250 97 : List Byte).length = 250 := List.length_replicate
  generalize (List.replicate 250 97 : List Byte) = name at hname hlen ⊢
  refine (absolute_path_whole_iff hconf (.cons (by decide) hname) rfl (by decide)
    (by decide)).mpr ?_
  rw [List.length_append, List.length_cons]
  omega

theorem not_resolvesWhole {path : List Byte} (hd : Configured s.data) (hn : NoNul path)
    (hroot : s.data.rootPath.length = 4) (hlen : path.length = 252)
    (habs : filesystemIsAbsPath path = 0) : ¬ ResolvesWhole os s path 252 [] pathLenMax 0 := by
  intro h
  have hfit := (absolute_path_whole_iff hd hn habs (by decide) (by decide)).mp h
  have hmax : pathLenMax = 256 := rfl
  rw [List.length_append] at hfit
  omega

/-- **A path of 252 bytes is resolved without a NUL behind it**, below `/srv`. -/
theorem long_path_resolved : ¬ ResolvesWhole Host.plain.os (Host.start Host.plain.os Host.argv)
    (47 :: List.replicate 251 97) 252 [] pathLenMax 0 :=
  not_resolvesWhole (Host.reachable_run (n := 0) (by decide +kernel)).sound.configured
    (.cons (by decide) (noNul_replicate (by decide) _)) (by decide +kernel)
    (by rw [List.length_cons, List.length_replicate]) rfl

/-! ### Taking the root path off -/

/-- The server path of a real path whose text starts with the root path. -/
def serverPathOf (root p : List Byte) : List Byte := if p = root then [47] else p.drop root.length

/-- A text does not differ from its beginning as far as that goes. -/
theorem find?_prefix_none (root m : List Byte) :
    (List.range root.length).find? (fun i => (root ++ m).getD i 0 ≠ root.getD i 0) = none := by
  rw [List.find?_range_eq_none]
  intro i hi
  simp [List.getElem?_append_left hi]

/-- A text first differs from its beginning where that ends, as there are only NULs behind. -/
theorem find?_prefix {root m : List Byte} {c : Byte} (hc : c ≠ 0) {n : ℕ} (hn : root.length < n) :
    (List.range n).find? (fun i => (root ++ c :: m).getD i 0 ≠ root.getD i 0)
      = some root.length := by
  rw [List.find?_range_eq_some]
  refine ⟨by simp [hc], List.mem_range.mpr hn, fun i hi => ?_⟩
  simp [List.getElem?_append_left hi]

theorem serverPathOf_of_ne {root p : List Byte} (h : p ≠ root) :
    serverPathOf root p = p.drop root.length := if_neg h

theorem serverPathOf_length_le {root p : List Byte} (h : p ≠ root) :
    (serverPathOf root p).length ≤ p.length := by
  rw [serverPathOf_of_ne h, List.length_drop]
  omega

theorem noNul_serverPathOf {root p : List Byte} (hp : NoNul p) : NoNul (serverPathOf root p) := by
  unfold serverPathOf
  split
  · decide
  · exact fun h => hp (List.mem_of_mem_drop h)

/-- The server path of a real path whose text goes on behind the root path: it is found however
far the array is looked at. -/
theorem wp_serverRealPathToServerPath_past {p t dst : List Byte} {k n : ℕ} (hp : NoNul p)
    (hlen : p.length < pathLenMax) (hroot : s.data.rootPath <+: p) (hne : p ≠ s.data.rootPath)
    (hk : s.data.rootPath.length < k) :
    wp os (serverRealPathToServerPath (p ++ 0 :: t) k dst pathLenMax n) (fun out s' =>
      out = ⟨0, strncpy dst 0 (serverPathOf s.data.rootPath p) pathLenMax,
        (serverPathOf s.data.rootPath p).length⟩ ∧ s' = s) E s := by
  have hn : NoNul (serverPathOf s.data.rootPath p) := noNul_serverPathOf hp
  have hshort := (serverPathOf_length_le hne).trans_lt hlen
  unfold serverRealPathToServerPath
  rw [if_pos ⟨by omega, by decide⟩]
  refine (wp_bind _ _).mpr (wp_getData.mpr ((wp_bind _ _).mpr ((wp_peek _).mpr ?_)))
  obtain ⟨rest, hrest⟩ := hroot
  cases rest with
  | nil => exact absurd (by simpa using hrest.symm) hne
  | cons c rest =>
    have hmem : p ++ 0 :: t ++ os.behind s.log
        = s.data.rootPath ++ c :: (rest ++ 0 :: (t ++ os.behind s.log)) := by simp [← hrest]
    have htail : serverPathOf s.data.rootPath p = c :: rest := by
      rw [serverPathOf_of_ne hne, ← hrest, List.drop_left' rfl]
    rw [htail] at hn hshort
    have hc : c ≠ 0 := fun h => hn (by simp [h])
    have hstr : cstr (c :: (rest ++ 0 :: (t ++ os.behind s.log))) = c :: rest :=
      cstr_append_nul hn _
    simp only [hmem, find?_prefix hc hk, htail, List.drop_left' rfl, hstr]
    exact ⟨by rw [strnlen_strncpy hn hshort], rfl⟩

/-- **The server path of a real path** that starts with the root path, from an array with a
NUL. -/
theorem wp_serverRealPathToServerPath_below {p t : List Byte} (hd : Configured s.data)
    (hp : NoNul p) (hlen : p.length < pathLenMax) (hroot : s.data.rootPath <+: p) :
    wp os (serverRealPathToServerPath (p ++ 0 :: t) p.length [] pathLenMax 0) (fun out s' =>
      out.retval = 0 ∧ (∀ t, cstr (out.buf ++ t) = serverPathOf s.data.rootPath p) ∧
        out.len = (serverPathOf s.data.rootPath p).length ∧ s' = s) E s := by
  have hpos := (hd.canonical.length_pos).trans_le hroot.length_le
  by_cases hp0 : p = s.data.rootPath
  · subst hp0
    unfold serverRealPathToServerPath serverPathOf
    rw [if_pos ⟨hpos, by decide⟩]
    refine (wp_bind _ _).mpr (wp_getData.mpr ((wp_bind _ _).mpr ((wp_peek _).mpr ?_)))
    simp only [List.append_assoc, find?_prefix_none, if_true]
    exact ⟨rfl, fun t => rfl, rfl, rfl⟩
  · have hlt : s.data.rootPath.length < p.length := by
      refine Nat.lt_of_le_of_ne hroot.length_le fun h => hp0 ?_
      exact (hroot.eq_of_length h).symm
    refine wp_mono (wp_serverRealPathToServerPath_past hp hlen hroot hp0 hlt) ?_ fun _ h => h
    rintro _ _ ⟨rfl, rfl⟩
    have hshort := (serverPathOf_length_le hp0).trans_lt hlen
    exact ⟨rfl, fun t => cstr_strncpy (noNul_serverPathOf hp) hshort [] t, rfl, rfl⟩

/-- The server path that `VSFTPServerRealPathToServerPath` makes of a real path: it goes on where
the two first differ. -/
def shownPath (root path : List Byte) : List Byte :=
  match (List.range path.length).find? fun i => path.getD i 0 ≠ root.getD i 0 with
  | none => [47]
  | some i => path.drop i

/-- **The server path of any text** in an array with a NUL. -/
theorem wp_serverRealPathToServerPath_shown {t : List Byte} (hn : NoNul t)
    (hlen : t.length < pathLenMax) :
    wp os (serverRealPathToServerPath (t ++ [0]) t.length [] pathLenMax 0) (fun out s' =>
      (0 < t.length → out.retval = 0) ∧
        (out.retval = 0 → ∀ x, cstr (out.buf ++ x) = shownPath s.data.rootPath t) ∧
        s' = s) E s := by
  unfold serverRealPathToServerPath
  refine wp_ite (fun _ => ?_) (fun hno => ⟨fun hpos => absurd ⟨hpos, by decide⟩ hno,
    fun h => absurd h (by decide), rfl⟩)
  refine (wp_bind _ _).mpr (wp_getData.mpr ((wp_bind _ _).mpr ((wp_peek _).mpr ?_)))
  -- the memory behind the text is not looked at
  have hfind : ((List.range t.length).find? fun i =>
      decide ((t ++ [0] ++ os.behind s.log).getD i 0 ≠ s.data.rootPath.getD i 0)) =
      (List.range t.length).find? fun i => decide (t.getD i 0 ≠ s.data.rootPath.getD i 0) := by
    apply List.find?_congr
    intro i hi
    rw [List.append_assoc, List.getD_append _ _ _ _ (List.mem_range.mp hi)]
  simp only [hfind]
  split
  · next hnone =>
    refine ⟨fun _ => rfl, fun _ x => ?_, rfl⟩
    rw [shownPath, hnone]
    rfl
  · next i hsome =>
    have hi : i < t.length := List.mem_range.mp (List.mem_of_find?_eq_some hsome)
    have hdrop : cstr ((t ++ [0] ++ os.behind s.log).drop i) = t.drop i := by
      rw [List.append_assoc, List.drop_append_of_le_length hi.le, List.singleton_append]
      exact cstr_append_nul (fun h0 => hn (List.mem_of_mem_drop h0)) _
    refine ⟨fun _ => rfl, fun _ x => ?_, rfl⟩
    rw [hdrop, shownPath, hsome]
    refine cstr_strncpy (fun h0 => hn (List.mem_of_mem_drop h0)) ?_ [] x
    rw [List.length_drop]
    omega

/-- **Where the server path of a text starts**: if the text is a beginning of the root path it is a
separator, and else it is what the text has from the first byte on that is not the root path's. -/
theorem shownPath_spec {root t : List Byte} (hn : NoNul t) :
    t <+: root ∧ shownPath root t = [47] ∨ ∃ i ≤ root.length, ∃ c u, t = root.take i ++ c :: u ∧
      root.getD i 0 ≠ c ∧ shownPath root t = c :: u := by
  -- where a text agrees with the root path, so far the root path goes
  have hagree : ∀ k ≤ t.length, (∀ j < k, t.getD j 0 = root.getD j 0) →
      k ≤ root.length ∧ t.take k = root.take k := by
    intro k hk h
    have hle : k ≤ root.length := by
      by_contra hlong
      have hlast := h root.length (by omega)
      rw [List.getD_eq_getElem _ _ (by omega), List.getD_eq_default _ _ le_rfl] at hlast
      exact hn (hlast ▸ List.getElem_mem _)
    refine ⟨hle, List.ext_getElem (by simp; omega) fun j hj _ => ?_⟩
    have hj' : j < k := by simp at hj; omega
    have hget := h j hj'
    rw [List.getD_eq_getElem _ _ (by omega), List.getD_eq_getElem _ _ (by omega)] at hget
    rw [List.getElem_take, List.getElem_take, hget]
  unfold shownPath
  split
  · next hnone =>
    rw [List.find?_range_eq_none] at hnone
    have h := hagree t.length le_rfl fun j hj => by simpa using hnone j hj
    rw [List.take_length] at h
    exact Or.inl ⟨h.2 ▸ List.take_prefix _ _, rfl⟩
  · next i hsome =>
    rw [List.find?_range_eq_some] at hsome
    obtain ⟨hne, hi, hbefore⟩ := hsome
    have hi := List.mem_range.mp hi
    have h := hagree i hi.le fun j hj => by simpa using hbefore j hj
    refine Or.inr ⟨i, h.1, t[i], t.drop (i + 1), ?_, ?_, List.drop_eq_getElem_cons hi⟩
    · rw [← h.2, ← List.drop_eq_getElem_cons hi, List.take_append_drop]
    · rw [List.getD_eq_getElem _ _ hi] at hne
      exact (of_decide_eq_true hne).symm

/-- The server path of a text that is a beginning of the root path. -/
theorem shownPath_of_prefix {root t : List Byte} (h : t <+: root) : shownPath root t = [47] := by
  obtain ⟨m, rfl⟩ := h
  have hnone : (List.range t.length).find? (fun i => t.getD i 0 ≠ (t ++ m).getD i 0) = none := by
    rw [List.find?_range_eq_none]
    intro i hi
    simp [List.getElem?_append_left hi]
  rw [shownPath, hnone]

/-- The server path of a text that leaves the root path. -/
theorem shownPath_of_ne {root u : List Byte} {i : ℕ} {c : Byte} (hi : i ≤ root.length)
    (hne : root.getD i 0 ≠ c) : shownPath root (root.take i ++ c :: u) = c :: u := by
  have hlen : (root.take i).length = i := List.length_take_of_le hi
  have hsome : (List.range (root.take i ++ c :: u).length).find? (fun j =>
      (root.take i ++ c :: u).getD j 0 ≠ root.getD j 0) = some i := by
    rw [List.find?_range_eq_some]
    refine ⟨?_, List.mem_range.mpr (by simp [hlen]), fun j hj => ?_⟩
    · rw [List.getD_append_right _ _ _ _ hlen.le, hlen, Nat.sub_self, List.getD_cons_zero]
      exact decide_eq_true hne.symm
    · rw [List.getD_append _ _ _ _ (by omega)]
      simp [hj]
  rw [shownPath, hsome]
  exact List.drop_left' hlen

/-- The server path of a text that starts with the root path. -/
theorem shownPath_of_isPrefix {root p : List Byte} (hn : NoNul p) (h : root <+: p) :
    shownPath root p = serverPathOf root p := by
  obtain ⟨rest, rfl⟩ := h
  cases rest with
  | nil =>
    rw [List.append_nil, serverPathOf, if_pos rfl]
    exact shownPath_of_prefix List.prefix_rfl
  | cons c rest =>
    have hc : c ≠ 0 := fun h0 => hn (by simp [h0])
    have hnext : root.getD root.length 0 ≠ c := by
      rw [List.getD_eq_default _ _ le_rfl]
      exact hc.symm
    have h := @shownPath_of_ne root rest root.length c le_rfl hnext
    rw [List.take_length] at h
    rw [h, serverPathOf_of_ne (by simp), List.drop_left' rfl]

/-! ### The round trip -/

/-- What is assumed of `realpath`: the path exists and is canonical, and so is the root path,
which is also found with a separator behind. -/
structure Existing (os : Os) (root p : List Byte) : Prop where
  self : ∀ log, os.realpath log p = some p
  slash : ∀ log, os.realpath log (root ++ [47]) = some root

/-- The record of a server with the given root path. -/
structure Rooted (root : List Byte) (d : ServerData) : Prop where
  configured : Configured d
  rootPath_eq : d.rootPath = root

/-- **The round trip**: from a real path a server path is made, which starts with a separator,
and in any state of a server with the same root path this is resolved to the real path. -/
def RoundTrips (root p : List Byte) : Prop :=
  ∀ (os : Os) (s s' : St) (t : List Byte), Existing os root p → Rooted root s.data →
    Rooted root s'.data →
    wp os (serverRealPathToServerPath (p ++ 0 :: t) p.length [] pathLenMax 0) (fun enc _ =>
      enc.retval = 0 ∧ ∃ path, (∀ t, cstr (enc.buf ++ t) = path) ∧ enc.len = path.length ∧
        [47] <+: path ∧ wp os (serverServerPathToRealPath path path.length [] pathLenMax 0)
          (fun dec _ => dec.retval = 0 ∧ (∀ t, cstr (dec.buf ++ t) = p) ∧ dec.len = p.length)
          (fun _ => False) s') (fun _ => False) s

/-- The paths that come back: the root path, if a separator fits behind it, and what lies
below a root path other than `/`. -/
def ComesBack (root p : List Byte) : Prop :=
  if p = root then root.length + 1 < pathLenMax else root ≠ [47]

instance (root p : List Byte) : Decidable (ComesBack root p) := by unfold ComesBack; infer_instance

/-- What an absolute path makes the server resolve. -/
theorem serverTarget_abs {path : List Byte} {len : ℕ} (hd : Configured s.data) (hn : NoNul path)
    (habs : filesystemIsAbsPath path = 0) (hlen : 0 < len) : serverTarget os s path len
      = some (cstr (absoluteBuf s.data path ++ os.behind s.log)) := by
  unfold serverTarget getTarget realPathTarget
  rw [if_pos hlen, if_pos habs, if_pos (strnlen_absoluteBuf_pos hd hn),
    if_pos (isAbsPath_absolute hd _ _)]

theorem cstr_absoluteBuf_fits {d : ServerData} (hd : Configured d) {path : List Byte}
    (hn : NoNul path) (hfit : (d.rootPath ++ path).length < pathLenMax) (t : List Byte) :
    cstr (absoluteBuf d path ++ t) = d.rootPath ++ path := by
  obtain ⟨pad, hpad⟩ := absoluteBuf_fits hd hfit
  rw [hpad, List.append_assoc, List.cons_append, cstr_append_nul (hd.noNul.append hn)]

section RoundTrip

variable {root p : List Byte}

/-- **The server path of a path that comes back** starts with a separator, and behind the root
path it is the path again, or the root path with a separator. -/
theorem ComesBack.spec (h : ComesBack root p) (hin : Path.InTree (47 : Byte) root p)
    (hlen : p.length < pathLenMax) : [47] <+: serverPathOf root p ∧
      (root ++ serverPathOf root p).length < pathLenMax ∧
      (root ++ serverPathOf root p = p ∨
        p = root ∧ root ++ serverPathOf root p = root ++ [47]) := by
  unfold ComesBack at h
  unfold serverPathOf
  by_cases hp : p = root
  · rw [if_pos hp] at h ⊢
    exact ⟨List.prefix_rfl, by simpa using h, Or.inr ⟨hp, rfl⟩⟩
  · rw [if_neg hp] at h ⊢
    rcases hin with hin | hin
    · exact absurd hin hp
    · rw [Path.Below, if_neg h] at hin
      obtain ⟨rest, rfl⟩ := hin
      rw [List.append_assoc, List.drop_left' rfl] at *
      exact ⟨⟨rest, rfl⟩, hlen, Or.inl rfl⟩

/-- A path that comes back is the root path or starts with it and a separator. -/
theorem ComesBack.below (h : ComesBack root p) (hin : Path.InTree (47 : Byte) root p) :
    p = root ∨ root ++ [47] <+: p := by
  unfold ComesBack at h
  by_cases hp : p = root
  · exact Or.inl hp
  · rw [if_neg hp] at h
    have hbelow := hin.resolve_left hp
    rw [Path.Below, if_neg h] at hbelow
    exact Or.inr hbelow

theorem Existing.resolves (he : Existing os root p) {path : List Byte}
    (hpath : root ++ path = p ∨ p = root ∧ root ++ path = root ++ [47]) (log : Log) :
    os.realpath log (root ++ path) = some p := by
  rcases hpath with h | ⟨rfl, h⟩
  · rw [h, he.self log]
  · rw [h, he.slash log]

/-- What the server path of a path that comes back makes the server resolve. -/
theorem ComesBack.resolving (h : ComesBack root p) (hin : Path.InTree (47 : Byte) root p)
    (hp : NoNul p) (hlen : p.length < pathLenMax) (he : Existing os root p)
    (hs : Rooted root s.data) {out : PathOut} {L : List Event}
    (hres : Resolving os s.log
      (serverTarget os s (serverPathOf root p) (serverPathOf root p).length) out L) :
    out = ⟨0, strncpy [] 0 p pathLenMax, p.length⟩ := by
  obtain ⟨hsep, hfit, hpath⟩ := h.spec hin hlen
  obtain ⟨t, ht⟩ := hsep
  have hn : NoNul (serverPathOf root p) := noNul_serverPathOf hp
  have hreal := he.resolves hpath s.log
  rw [← hs.rootPath_eq] at hfit hpath hreal ht hn hres
  have htarget := @serverTarget_abs os s _ (serverPathOf s.data.rootPath p).length hs.configured hn
    (by rw [← ht]; rfl) (by rw [← ht]; simp)
  rw [cstr_absoluteBuf_fits hs.configured hn hfit] at htarget
  rw [htarget] at hres
  cases hres with
  | failed _ hno => exact absurd ⟨_, rfl, hreal, hlen⟩ (hno p)
  | found hp' ha =>
    obtain rfl := Option.some.inj hp'
    obtain rfl := Option.some.inj (hreal.symm.trans ha)
    rfl

theorem ComesBack.isAbsPath (h : ComesBack root p) (hin : Path.InTree (47 : Byte) root p)
    (hlen : p.length < pathLenMax) : filesystemIsAbsPath (serverPathOf root p) = 0 := by
  obtain ⟨t, ht⟩ := (h.spec hin hlen).1
  rw [← ht]
  rfl

theorem ComesBack.roundTrips (h : ComesBack root p) (hin : Path.InTree (47 : Byte) root p)
    (hp : NoNul p) (hlen : p.length < pathLenMax) : RoundTrips root p := by
  intro os s s' t he hs hs'
  have hroot : s.data.rootPath <+: p := hs.rootPath_eq ▸ hin.isPrefix
  refine wp_mono (wp_serverRealPathToServerPath_below hs.configured hp hlen hroot) ?_
    fun _ h => h
  rintro enc _ ⟨h0, hbuf, henc, -⟩
  rw [hs.rootPath_eq] at hbuf henc
  refine ⟨h0, serverPathOf root p, hbuf, henc, (h.spec hin hlen).1, ?_⟩
  refine wp_mono (wp_serverServerPathToRealPath fun hrel => absurd (h.isAbsPath hin hlen) hrel) ?_
      fun _ h => h
  rintro _ _ ⟨L, hres, -⟩
  obtain rfl := h.resolving hin hp hlen he hs' hres
  exact ⟨rfl, fun t => cstr_strncpy hp hlen [] t, rfl⟩

/-! ### `PWD` and `CWD` -/

/-- **`PWD` leads back**: when the client is in the directory, `PWD` answers with a path, and
`CWD` to this path makes it the working directory again, whatever that is by then. -/
def LeadsBack (root p : List Byte) : Prop :=
  ∀ (os : Os) (s s' : St) (args t : List Byte) (len : ℕ), Existing os root p →
    (∀ log, reportedKind os log p = .dir) → Rooted root s.data → s.data.cwd = p →
    s.data.cwdLen = p.length → Rooted root s'.data → Printable os s'.data →
    wp os (commandHandlerPwd args len) (fun _ s1 => ∃ path w, NoNul path ∧
      s1 = ⟨s.data, .write .client s.data.clientSock
        (ascii "257 \"" ++ path ++ ascii "\"" ++ crlf) w :: s.log⟩ ∧
      wp os (commandHandlerCwd (path ++ 0 :: t) path.length)
        (fun _ s2 => s2.data.cwd = p ∧ s2.data.cwdLen = p.length) (fun _ => False) s')
      (fun _ => False) s

/-- What `p` prints, used as a format, is a beginning of the root path and then what `p` has behind
the root path; the root path does not go on with a separator there, unless `p` is the root path. -/
def PrintsRest (root p : List Byte) : Prop :=
  ∃ i ≤ root.length, formatText p p.length = some (root.take i ++ p.drop root.length) ∧
    (p ≠ root → root.getD i 0 ≠ 47)

instance (root p : List Byte) : Decidable (PrintsRest root p) := by
  unfold PrintsRest
  infer_instance

/-- A path without a percent sign prints its rest behind the root path as it is. -/
theorem printsRest_of_plain (hroot : root <+: p) (hplain : (37 : Byte) ∉ p) :
    PrintsRest root p := by
  obtain ⟨rest, rfl⟩ := hroot
  refine ⟨root.length, le_rfl, ?_, fun _ => ?_⟩
  · rw [formatText_of_plain hplain, List.take_length, List.drop_left' rfl]
  · rw [List.getD_eq_default _ _ le_rfl]
    decide

example : ¬ PrintsRest (ascii "/srv") (ascii "/srv/%%") := by decide

/-- `PWD` answers with the server path of what the working directory prints. -/
theorem wp_commandHandlerPwd_text {args text : List Byte} {len : ℕ}
    (hf : formatText s.data.cwd s.data.cwdLen = some text) (hn : NoNul text)
    (hcwd : 0 < s.data.cwdLen ∧ s.data.cwdLen < pathLenMax) (hpos : 0 < text.length)
    (hfit : text.length < pathLenMax) : wp os (commandHandlerPwd args len) (fun _ s1 => ∃ w,
      s1 = ⟨s.data, .write .client s.data.clientSock (ascii "257 \"" ++
        shownPath s.data.rootPath text ++ ascii "\"" ++ crlf) w :: s.log⟩) E s := by
  unfold commandHandlerPwd
  refine wp_seq (wp_serverGetCwd_text hf hcwd.1 hcwd.2 hfit) ?_
  rintro _ s1 ⟨rfl, rfl⟩
  rw [if_pos rfl]
  refine wp_seq (wp_serverRealPathToServerPath_shown hn hfit) ?_
  rintro out s2 ⟨h0, hbuf, rfl⟩
  rw [if_pos (h0 hpos)]
  refine wp_seq wp_readString ?_
  rintro _ s3 ⟨rfl, rfl⟩
  rw [hbuf (h0 hpos)]
  -- the reply fits, because the server path is no longer than the text
  have hshort : (shownPath s3.data.rootPath text).length ≤ text.length := by
    unfold shownPath
    split
    · exact hpos
    · simp
  have hascii : (ascii "257 \"").length = 5 ∧ (ascii "\"").length = 1 := by decide
  have hroom : pathLenMax + 8 < responseLenMax := by decide
  refine wp_mono (wp_serverSendReply ?_) ?_ fun _ h => h
  · simp only [List.length_append, hascii]
    omega
  · rintro _ _ ⟨w, -, rfl⟩
    exact ⟨w, rfl⟩

/-- `PWD` answers with the server path of a working directory that is printed as it is. -/
theorem wp_commandHandlerPwd_below {args : List Byte} {len : ℕ} (hd : Configured s.data)
    (hp : NoNul p) (hplain : (37 : Byte) ∉ p) (hlen : p.length < pathLenMax)
    (hroot : s.data.rootPath <+: p) (hcwd : s.data.cwd = p) (hcwdLen : s.data.cwdLen = p.length) :
    wp os (commandHandlerPwd args len) (fun _ s1 => ∃ w,
      s1 = ⟨s.data, .write .client s.data.clientSock
        (ascii "257 \"" ++ serverPathOf s.data.rootPath p ++ ascii "\"" ++ crlf) w :: s.log⟩)
      E s := by
  have hpos := hd.canonical.length_pos.trans_le hroot.length_le
  rw [← shownPath_of_isPrefix hp hroot]
  refine wp_commandHandlerPwd_text ?_ hp ⟨hcwdLen ▸ hpos, hcwdLen ▸ hlen⟩ hpos hlen
  rw [hcwd, formatText_of_plain hplain]

/-- A text that does not fit the buffer is not reported. -/
theorem wp_commandHandlerPwd_long {args text : List Byte} {len : ℕ}
    (hf : formatText s.data.cwd s.data.cwdLen = some text) (hlong : pathLenMax ≤ text.length) :
    wp os (commandHandlerPwd args len) (fun _ s1 => ∃ w, s1 = ⟨s.data, .write .client
      s.data.clientSock (ascii "550 Failed to get directory." ++ crlf) w :: s.log⟩) E s := by
  have hno : PrintKills os s → E s := fun hk => absurd (hf.symm.trans hk.1) (by simp)
  have hfits : ¬ CwdFits os s := by
    rintro ⟨-, hfit⟩
    rw [cwdText, hf, Option.getD_some] at hfit
    omega
  unfold commandHandlerPwd
  refine wp_seq (wp_serverGetCwd hno) ?_
  rintro out s1 ⟨hgot, rfl⟩
  cases hgot with
  | got h => exact absurd h hfits
  | failed =>
    refine (wp_bind _ _).mpr (wp_ite (fun h => absurd h (by simp)) fun _ => ?_)
    refine wp_ite (fun h => absurd h (by simp)) fun _ => ?_
    refine wp_mono (wp_serverSendReply (by decide)) ?_ fun _ h => h
    rintro _ _ ⟨w, -, rfl⟩
    exact ⟨w, rfl⟩

/-- **What is printed of a directory with this property has its server path.** -/
theorem PrintsRest.exists_text (h : PrintsRest root p) (hpos : 0 < p.length)
    (hin : p = root ∨ root ++ [47] <+: p) : ∃ text, formatText p p.length = some text ∧
      0 < text.length ∧ text.length ≤ p.length ∧ shownPath root text = serverPathOf root p := by
  obtain ⟨i, hi, htext, hnext⟩ := h
  refine ⟨_, htext, ?_, ?_, ?_⟩
  · exact List.length_pos_of_ne_nil
      (formatText_ne_nil hpos.ne' (List.ne_nil_of_length_pos hpos) htext)
  · rcases hin with rfl | ⟨rest, rfl⟩
    · simp
    · simp
  · rcases hin with rfl | ⟨rest, rfl⟩
    · rw [serverPathOf, if_pos rfl, List.drop_length, List.append_nil]
      exact shownPath_of_prefix (List.take_prefix _ _)
    · have hne : root ++ [47] ++ rest ≠ root := by simp
      rw [serverPathOf_of_ne hne, List.append_assoc, List.drop_left' rfl]
      exact shownPath_of_ne hi (hnext hne)

/-- A directory below the root path that exists is entered. -/
theorem Entering.of_existing {retval : Int} {d d' : ServerData} {log : Log} {L : List Event}
    (h : Entering os log p d retval d' L) (hd : Configured d) (hc : Path.Canonical (47 : Byte) p)
    (hlen : p.length < pathLenMax) (hself : ∀ log, os.realpath log p = some p)
    (hdir : ∀ log, reportedKind os log p = .dir) (hroot : d.rootPath <+: p) :
    retval = 0 ∧ d'.cwd = p ∧ d'.cwdLen = p.length := by
  have htest : absPathIsNotAboveRootPath d (strncpy [] 0 p pathLenMax) p.length = 0 := by
    rw [strncpy_zero hlen.le, List.append_assoc]
    exact (absPathIsNotAboveRootPath_eq_zero_iff hd.length_eq hc.length_pos _).mpr hroot
  cases h with
  | failed _ _ hno => exact absurd ⟨hself _, hlen, hdir _, htest⟩ (hno p)
  | entered h =>
    obtain rfl := Option.some.inj ((hself _).symm.trans h.1)
    exact ⟨rfl, rfl, rfl⟩

/-- **`CWD` to the server path of a directory that comes back enters it.** -/
theorem ComesBack.wp_commandHandlerCwd (h : ComesBack root p)
    (hin : Path.InTree (47 : Byte) root p) (hc : Path.Canonical (47 : Byte) p) (hp : NoNul p)
    (hlen : p.length < pathLenMax) (he : Existing os root p)
    (hdir : ∀ log, reportedKind os log p = .dir) (hs : Rooted root s.data)
    (hprint : Printable os s.data) (t : List Byte) :
    wp os (commandHandlerCwd (serverPathOf root p ++ 0 :: t) (serverPathOf root p).length)
      (fun _ s' => s'.data.cwd = p ∧ s'.data.cwdLen = p.length) (fun _ => False) s := by
  have hn : NoNul (serverPathOf root p) := noNul_serverPathOf hp
  obtain ⟨u, hu⟩ := (h.spec hin hlen).1
  unfold commandHandlerCwd
  rw [if_pos (by rw [← hu]; simp)]
  -- the server path resolves to the directory itself
  have hpath : wp os (do
      let path ← readString (serverPathOf root p ++ 0 :: t)
      serverServerPathToRealPath path (serverPathOf root p).length [] pathLenMax 0)
      (fun out s' => out = ⟨0, strncpy [] 0 p pathLenMax, p.length⟩ ∧ s'.data = s.data)
      (fun _ => False) s := by
    refine wp_seq wp_readString ?_
    rintro _ s1 ⟨rfl, rfl⟩
    rw [List.append_assoc, List.cons_append, cstr_append_nul hn]
    refine wp_mono (wp_serverServerPathToRealPath fun hrel => absurd (h.isAbsPath hin hlen) hrel) ?_
      fun _ h => h
    rintro out _ ⟨L, hres, rfl⟩
    exact ⟨h.resolving hin hp hlen he hs hres, rfl⟩
  refine wp_seq hpath ?_
  rintro _ ⟨d, log⟩ ⟨rfl, rfl⟩
  rw [onOk_zero]
  refine wp_seq (wp_mono (wp_serverSetCwd_found hc hp hlen) (fun _ _ h => h)
    fun _ hk => hk.1 hprint) ?_
  rintro retval ⟨d', _⟩ ⟨L, hent, rfl⟩
  obtain ⟨rfl, hcwd, hcwdLen⟩ := hent.of_existing hs.configured hc hlen he.self hdir
    (hs.rootPath_eq ▸ hin.isPrefix)
  rw [if_pos rfl]
  refine wp_mono (wp_serverSendReply (by decide)) ?_ fun _ h => h
  rintro _ _ ⟨w, -, rfl⟩
  exact ⟨hcwd, hcwdLen⟩

/-- **`PWD` leads back** to a directory that comes back and is printed so. -/
theorem ComesBack.leadsBack (h : ComesBack root p) (hin : Path.InTree (47 : Byte) root p)
    (hc : Path.Canonical (47 : Byte) p) (hp : NoNul p) (hlen : p.length < pathLenMax)
    (hprints : PrintsRest root p) : LeadsBack root p := by
  intro os s s' args t len he hdir hs hcwd hcwdLen hs' hprint
  obtain ⟨text, htext, hpos, hle, hshown⟩ := hprints.exists_text hc.length_pos (h.below hin)
  have hf : formatText s.data.cwd s.data.cwdLen = some text := by rw [hcwd, hcwdLen, htext]
  have hcwdPos : 0 < s.data.cwdLen ∧ s.data.cwdLen < pathLenMax :=
    hcwdLen ▸ ⟨hc.length_pos, hlen⟩
  refine wp_mono (wp_commandHandlerPwd_text hf (hp.formatText htext) hcwdPos hpos
    (hle.trans_lt hlen)) ?_ fun _ h => h
  rintro _ _ ⟨w, rfl⟩
  rw [hs.rootPath_eq, hshown]
  exact ⟨serverPathOf root p, w, noNul_serverPathOf hp, rfl,
    h.wp_commandHandlerCwd hin hc hp hlen he hdir hs' hprint t⟩

/-! ### Paths that do not come back -/

/-- A system on which these two paths are all there is, and both are directories; there is a byte
behind every array, and undefined behaviour ends the process. -/
def sparseOs (root p : List Byte) (hroot : Path.Canonical (47 : Byte) root ∧ NoNul root)
    (hp : Path.Canonical (47 : Byte) p ∧ NoNul p) : Os :=
  { Host.plain.os with
    realpath := fun _ path =>
      if path = root ++ [47] then some root else if path = p then some p else none
    stat := fun _ _ => some (.empty .dir)
    behind := fun _ => [120]
    survives := fun _ => false
    realpath_canonical := by
      intro _ path r hr
      split at hr
      · exact Option.some.inj hr ▸ hroot
      · split at hr
        · exact Option.some.inj hr ▸ hp
        · exact absurd hr (by simp) }

theorem sparseOs_existing {hroot : Path.Canonical (47 : Byte) root ∧ NoNul root}
    {hp : Path.Canonical (47 : Byte) p ∧ NoNul p} (hne : p ≠ root ++ [47]) :
    Existing (sparseOs root p hroot hp) root p :=
  ⟨fun _ => (if_neg hne).trans (if_pos rfl), fun _ => if_pos rfl⟩

/-- A server that has just been initialised with a root path. -/
def initialised (root : List Byte) : ServerData :=
  { ServerData.zero with rootPath := root, rootPathLen := root.length, ipAddr := [0] }

theorem initialised_rooted (hc : Path.Canonical (47 : Byte) root) (hn : NoNul root)
    (hlen : root.length < pathLenMax) : Rooted root (initialised root) :=
  ⟨⟨hc, hn, rfl, hlen, fun t => by simp [initialised, cstr]⟩, rfl⟩

/-- Below the root path `/` the server path does not start with a separator. -/
theorem not_roundTrips_slash (hp : Path.Canonical (47 : Byte) p) (hn : NoNul p)
    (hlen : p.length < pathLenMax) (hne : p ≠ [47]) : ¬ RoundTrips [47] p := by
  intro h
  have hroot : Path.Canonical (47 : Byte) [47] := ⟨[], by simp, rfl⟩
  have hslash : p ≠ [47] ++ [47] := fun h0 => hp.not_sep_sep ⟨[], h0.symm⟩
  have hs := initialised_rooted hroot (by decide) (by decide)
  have hrt := h (sparseOs [47] p ⟨hroot, by decide⟩ ⟨hp, hn⟩) ⟨initialised [47], []⟩
    ⟨initialised [47], []⟩ [] (sparseOs_existing hslash) hs hs
  obtain ⟨enc, s1, hrun, h0, path, hpath, -, hsep, -⟩ := exists_run_of_wp hrt
  have henc := of_wp_run (@wp_serverRealPathToServerPath_below _ ⟨initialised [47], []⟩
    (fun _ => False) p [] hs.configured hn hlen hp.sep_isPrefix) hrun
  -- what is left is the path without its separator
  obtain rfl := (hpath []).symm.trans (henc.2.1 [])
  rw [initialised, serverPathOf, if_neg hne] at hsep
  obtain ⟨t, rfl⟩ := hp.sep_isPrefix
  rw [List.drop_left' rfl] at hsep
  exact hp.not_sep_sep ((List.prefix_append_right_inj [47]).mpr hsep)

/-- A root path without room for a separator is not what its server path is resolved to. -/
theorem not_roundTrips_full (hc : Path.Canonical (47 : Byte) root) (hn : NoNul root)
    (hlen : root.length + 1 = pathLenMax) : ¬ RoundTrips root root := by
  intro h
  have hlt : root.length < pathLenMax := by omega
  have hne : root ≠ root ++ [47] := by simp
  have hs := initialised_rooted hc hn hlt
  have hrt := h (sparseOs root root ⟨hc, hn⟩ ⟨hc, hn⟩) ⟨initialised root, []⟩
    ⟨initialised root, []⟩ [] (sparseOs_existing hne) hs hs
  obtain ⟨enc, s1, hrun, h0, path, hpath, -, -, hdec⟩ := exists_run_of_wp hrt
  have henc := of_wp_run (@wp_serverRealPathToServerPath_below _ ⟨initialised root, []⟩
    (fun _ => False) root [] hs.configured hn hlt List.prefix_rfl) hrun
  obtain rfl := (hpath []).symm.trans (henc.2.1 [])
  have hpath : serverPathOf (initialised root).rootPath root = [47] := if_pos rfl
  simp only [hpath] at hdec
  obtain ⟨dec, s2, hrun, h0, -, -⟩ := exists_run_of_wp hdec
  -- the array is full, so what lies behind is part of what is resolved
  have hover : pathLenMax ≤ ((initialised root).rootPath ++ [47]).length := by
    simp only [initialised, List.length_append, List.length_singleton]
    omega
  have hbuf : absoluteBuf (initialised root) [47] = root ++ [47] := by
    rw [absoluteBuf_overflow hs.configured hover,
      show pathLenMax - (initialised root).rootPath.length
      = 1 by simp only [initialised]; omega]
    rfl
  have htarget : serverTarget (sparseOs root root ⟨hc, hn⟩ ⟨hc, hn⟩) ⟨initialised root, []⟩ [47] 1
      = some (root ++ [47] ++ [120]) := by
    rw [serverTarget_abs hs.configured (by decide) rfl (by decide), hbuf]
    have hbehind : NoNul [(120 : Byte)] := by decide
    exact congrArg some (cstr_of_noNul ((hn.append (by decide)).append hbehind))
  obtain ⟨L, hres, -⟩ := of_wp_run
    (wp_serverServerPathToRealPath fun _ => PrintKills.killed) hrun
  rw [List.length_singleton, htarget] at hres
  cases hres with
  | failed => exact absurd h0 (by decide)
  | found hp ha =>
    obtain rfl := Option.some.inj hp
    simp [sparseOs] at ha

/-- A server with this root path whose client is in the directory `p`. -/
def visiting (root p : List Byte) : ServerData :=
  { initialised root with cwd := p, cwdLen := p.length }

/-- In the sparse system, `CWD` to a path that is relative, or of which the root path makes another
path than these two, enters nothing. -/
theorem sparse_target {hroot : Path.Canonical (47 : Byte) root ∧ NoNul root}
    {hp : Path.Canonical (47 : Byte) p ∧ NoNul p} (hrlen : root.length < pathLenMax)
    (hlen : p.length < pathLenMax) {q target r : List Byte} (hq : NoNul q)
    (htarget : argTarget (sparseOs root p hroot hp) ⟨initialised root, []⟩ (q ++ [0]) q.length
      = some target) (hr : (sparseOs root p hroot hp).realpath [] target = some r) :
    filesystemIsAbsPath q = 0 ∧ target = root ++ q := by
  have hs := initialised_rooted hroot.1 hroot.2 hrlen
  unfold argTarget at htarget
  rw [List.append_assoc, List.singleton_append, cstr_append_nul hq] at htarget
  by_cases habs : filesystemIsAbsPath q = 0
  swap
  · -- there is no working directory to look in
    have hfits : ¬ CwdFits (sparseOs root p hroot hp) ⟨initialised root, []⟩ :=
      fun h => lt_irrefl _ h.1.1
    unfold serverTarget at htarget
    rw [if_neg habs, if_neg hfits, ite_self] at htarget
    exact absurd htarget (by simp)
  refine ⟨habs, ?_⟩
  have hpos : 0 < q.length := by
    cases q with
    | nil => exact absurd habs (by decide)
    | cons c q => exact Nat.succ_pos _
  rw [serverTarget_abs hs.configured hq habs hpos] at htarget
  obtain rfl := Option.some.inj htarget
  by_cases hfit : (root ++ q).length < pathLenMax
  · exact cstr_absoluteBuf_fits hs.configured hq hfit _
  · -- the array is full, so what is resolved is longer than both paths
    exfalso
    have hbuf := absoluteBuf_overflow hs.configured (not_lt.mp hfit)
    have hlong := absoluteBuf_length hs.configured q
    have hbehind : NoNul [(120 : Byte)] := by decide
    have hno : NoNul (absoluteBuf (initialised root) q) :=
      hbuf ▸ NoNul.append hroot.2 (hq.take _)
    have htext : cstr (absoluteBuf (initialised root) q ++ [120])
        = absoluteBuf (initialised root) q ++ [120] := cstr_of_noNul (hno.append hbehind)
    have hlength : (absoluteBuf (initialised root) q ++ [120]).length = pathLenMax + 1 := by
      rw [List.length_append, hlong, List.length_singleton]
    change (if cstr (absoluteBuf (initialised root) q ++ [120]) = root ++ [47] then some root
      else if cstr (absoluteBuf (initialised root) q ++ [120]) = p then some p else none)
        = some r at hr
    rw [htext, if_neg, if_neg] at hr
    · exact absurd hr (by simp)
    · intro h0
      rw [h0] at hlength
      omega
    · intro h0
      rw [h0, List.length_append, List.length_singleton] at hlength
      omega

/-- A directory whose text has the server path of the directory is printed so. -/
theorem printsRest_of_shown {text : List Byte} (hc : Path.Canonical (47 : Byte) p)
    (hroot : root ≠ []) (htext : formatText p p.length = some text) (hn : NoNul text)
    (h : root ++ shownPath root text = p ∧ [47] <+: shownPath root text ∨
      p = root ∧ shownPath root text = [47]) : PrintsRest root p := by
  rcases @shownPath_spec root text hn with ⟨hpre, hshown⟩ | ⟨i, hi, c, u, rfl, hne, hshown⟩
  · rw [hshown] at h
    rcases h with ⟨rfl, -⟩ | ⟨rfl, -⟩
    · exact absurd hc.eq_nil_of_append hroot
    · refine ⟨text.length, hpre.length_le, ?_, fun h0 => absurd rfl h0⟩
      rw [List.drop_length, List.append_nil, ← List.prefix_iff_eq_take.mp hpre, htext]
  · rw [hshown] at h
    rcases h with ⟨rfl, hsep⟩ | ⟨rfl, hsep⟩
    · obtain ⟨_, hcons⟩ := hsep
      obtain ⟨rfl, -⟩ := List.cons.inj hcons
      exact ⟨i, hi, by rw [List.drop_left' rfl, htext], fun _ => hne⟩
    · -- an output ends in a separator only if the path does
      obtain ⟨rfl, rfl⟩ := List.cons.inj hsep
      obtain ⟨q, rfl⟩ := formatText_slash hc.length_pos.ne' htext (List.suffix_append _ _)
      obtain rfl := hc.eq_nil_of_append
      exact printsRest_of_plain List.prefix_rfl (by decide)

/-- **If `PWD` leads back to a directory that comes back, the directory is printed so**: it does in
the sparse system. -/
theorem LeadsBack.printsRest (h : LeadsBack root p) (hroot : Path.Canonical (47 : Byte) root)
    (hrn : NoNul root) (hin : root <+: p) (hc : Path.Canonical (47 : Byte) p) (hp : NoNul p)
    (hlen : p.length < pathLenMax) : PrintsRest root p := by
  have hrlen := hin.length_le.trans_lt hlen
  have hne : p ≠ root ++ [47] := by
    rintro rfl
    exact hroot.ne_nil hc.eq_nil_of_append
  have hs := initialised_rooted hroot hrn hrlen
  have hv : Rooted root (visiting root p) := ⟨hs.configured.of_config rfl, rfl⟩
  have hlead := h (sparseOs root p ⟨hroot, hrn⟩ ⟨hc, hp⟩) ⟨visiting root p, []⟩
    ⟨initialised root, []⟩ [] [] 0 (sparseOs_existing hne) (fun _ => rfl) hv rfl rfl hs (Or.inl rfl)
  obtain ⟨_, s1, hrun, path, w, hpath, rfl, hcwd⟩ := exists_run_of_wp hlead
  cases htext : formatText p p.length with
  | none =>
    -- printing the directory ends the process
    refine absurd hrun (Dies.run_ne (Dies.bind (serverGetCwd_dies ?_ ?_) _) _ _)
    · exact ⟨htext, rfl⟩
    · exact ⟨hc.length_pos, hlen⟩
  | some text =>
    by_cases hfit : text.length < pathLenMax
    swap
    · obtain ⟨w', hs1⟩ := of_wp_run (@wp_commandHandlerPwd_long _ _ (fun _ => False) [] _ 0 htext
        (not_lt.mp hfit)) hrun
      -- that is no answer with a path
      have hreply := (Event.write.inj (List.cons.inj (congrArg Logged.log hs1)).1).2.2.1
      have hcode := congrArg (List.take 5) hreply
      rw [List.append_assoc, List.append_assoc, List.take_left' (by decide)] at hcode
      exact absurd hcode (by decide)
    have hpos : 0 < text.length := List.length_pos_of_ne_nil
      (formatText_ne_nil hc.length_pos.ne' hc.ne_nil htext)
    obtain ⟨w', hs1⟩ := of_wp_run (@wp_commandHandlerPwd_text _ _ (fun _ => False) [] _ 0 htext
      (hp.formatText htext) ⟨hc.length_pos, hlen⟩ hpos hfit) hrun
    obtain rfl : path = shownPath root text := by
      have hreply := (Event.write.inj (List.cons.inj (congrArg Logged.log hs1)).1).2.2.1
      exact List.append_cancel_left (List.append_cancel_right (List.append_cancel_right hreply))
    refine printsRest_of_shown hc hroot.ne_nil htext (hp.formatText htext) ?_
    obtain ⟨_, s2, hrun2, hcwd2, -⟩ := exists_run_of_wp hcwd
    have hmoved := of_wp_run wp_commandHandlerCwd hrun2
    cases hmoved with
    | stayed => exact absurd hcwd2 hc.ne_nil.symm
    | @moved target r d' _ _ _ htarget hr hd =>
      obtain ⟨habs, rfl⟩ := sparse_target hrlen hlen hpath htarget hr
      change (if root ++ shownPath root text = root ++ [47] then some root
        else if root ++ shownPath root text = p then some p else none) = some r at hr
      split_ifs at hr with hslash hself
      · -- the root path was entered
        obtain rfl := Option.some.inj hr
        refine Or.inr ⟨?_, List.append_cancel_left hslash⟩
        generalize h0 : (0 : Int) = retval at hd
        cases hd with
        | failed hno => exact absurd h0.symm hno
        | @entered r' he =>
          obtain rfl : r' = p := hcwd2
          have hfound := he.1
          change (if root = root ++ [47] then some root
            else if root = r' then some r' else none) = some r' at hfound
          split_ifs at hfound with h1 h2
          · exact absurd h1 (by simp)
          · exact h2.symm
      · refine Or.inl ⟨hself, ?_⟩
        obtain ⟨u, hu⟩ := List.head?_eq_some_iff.mp (filesystemIsAbsPath_eq_zero_iff.mp habs)
        exact ⟨u, hu.symm⟩

/-- **Exactly these paths come back.** -/
theorem roundTrips_iff (hin : Path.Within (47 : Byte) root p) (hp : NoNul p)
    (hlen : p.length < pathLenMax) : RoundTrips root p ↔ ComesBack root p := by
  obtain ⟨rs, cs, hrs, hcs, hroot, hcanon, -⟩ := id hin
  have hc : Path.Canonical (47 : Byte) root := ⟨rs, hrs, hroot⟩
  have hpc : Path.Canonical (47 : Byte) p := ⟨cs, hcs, hcanon⟩
  have htree := (Path.inTree_iff_within hc hpc).mpr hin
  refine ⟨fun h => ?_, fun h => h.roundTrips htree hp hlen⟩
  by_cases heq : p = root
  · subst heq
    refine (if_pos rfl).mpr ?_
    by_contra hfull
    exact not_roundTrips_full hc hp (by omega) h
  · refine (if_neg heq).mpr fun hslash => ?_
    subst hslash
    exact not_roundTrips_slash hpc hp hlen heq h

end RoundTrip

end VsFtp
