import VsFtp.Host

/-!
# Resolving a path

`VSFTPFilesystemGetRealPath` builds the string that is resolved, and stores what `realpath` makes
of it.  Three lengths are tested on the way: the sum of those of the two parts, that of their
concatenation, and that of the result.

## Main definitions

* `Target` — the string that is to be resolved.
* `Stores` — an output buffer holds a path and the NUL behind it.
* `ResolvesExactly` — a call has resolved the target whole, or nothing.

## Main results

* `realPathTarget_eq_some_iff` — the string that is built is the target.
* `real_path_exact` — **a path is resolved whole, or the function fails and stores nothing.**
-/

namespace VsFtp

open CString Prog

variable {δ : Type} {cwd : Option (List Byte)} {cwdLen size : ℕ} {path t : List Byte}

/-- The string that is to be resolved: an absolute path itself, and a relative one behind a working
directory that is not empty, if the two have room with the separator and the NUL. -/
inductive Target (cwd : Option (List Byte)) (path : List Byte) : List Byte → Prop
  | absolute (h : path.head? = some 47) : Target cwd path path
  | relative {dir : List Byte} (h : path.head? ≠ some 47) (hcwd : cwd = some dir) (hdir : dir ≠ [])
      (hlen : (dir ++ 47 :: path).length < pathLenMax) : Target cwd path (dir ++ 47 :: path)

theorem Target.unique {t' : List Byte} (h : Target cwd path t) (h' : Target cwd path t') :
    t = t' := by
  cases h with
  | absolute h =>
    cases h' with
    | absolute => rfl
    | relative hno => exact absurd h hno
  | relative hno hcwd =>
    cases h' with
    | absolute h => exact absurd h hno
    | relative _ hcwd' => rw [Option.some.inj (hcwd.symm.trans hcwd')]

/-- The output is the text, its NUL and its length. -/
structure Stores (out : PathOut) (text : List Byte) : Prop where
  buf : text ++ [0] <+: out.buf
  len : out.len = text.length

/-- What a call on the output buffer `realPath` of the given size returns, and what it does. -/
structure ResolvesExactly (os : Os) (s : Logged δ Event)
    (cwd : Option (List Byte)) (path : List Byte)
    (size : ℕ) (realPath : List Byte) (realPathLen : ℕ) (out : PathOut) (s' : Logged δ Event) :
    Prop where
  succeeds : out.retval = 0 ↔
    ∃ t r, Target cwd path t ∧ os.realpath s.log t = some r ∧ r.length < size
  stores : ∀ t r, Target cwd path t → os.realpath s.log t = some r → r.length < size → Stores out r
  untouched : out.retval ≠ 0 → out.buf = realPath ∧ out.len = realPathLen
  /-- Nothing but the target is handed to `realpath`. -/
  whole : ∃ N, s' = ⟨s.data, N ++ s.log⟩ ∧ ∀ e ∈ N, ∃ t r, e = .realpath t r ∧ Target cwd path t

/-- **The string that is built is the target**, although the sum of the lengths is tested before
the separator is counted. -/
theorem realPathTarget_eq_some_iff (hlen : ∀ dir, cwd = some dir → cwdLen = dir.length) :
    realPathTarget cwd cwdLen path path.length = some t ↔ Target cwd path t := by
  unfold realPathTarget
  by_cases habs : path.head? = some 47
  · rw [if_pos (filesystemIsAbsPath_eq_zero_iff.mpr habs)]
    constructor
    · intro h
      rw [← Option.some.inj h]
      exact .absolute habs
    · exact fun h => congrArg some (Target.unique (.absolute habs) h)
  · rw [if_neg fun h => habs (filesystemIsAbsPath_eq_zero_iff.mp h)]
    cases hcwd : cwd with
    | none =>
      refine iff_of_false (by simp) fun h => ?_
      cases h with
      | absolute h => exact habs h
      | relative _ h => exact absurd h (by simp)
    | some dir =>
      obtain rfl := hlen dir hcwd
      constructor
      · intro h
        simp only [concatCwdAndPath] at h
        split at h
        · next hpos =>
          split at h
          · split at h
            · next hfit =>
              rw [← Option.some.inj h]
              exact .relative habs rfl (List.length_pos_iff.mp hpos) hfit
            · exact absurd h (by simp)
          · exact absurd h (by simp)
        · exact absurd h (by simp)
      · intro h
        cases h with
        | absolute h => exact absurd h habs
        | @relative dir' _ hdir hne hfit =>
          obtain rfl := Option.some.inj hdir
          -- the test of the sum passes, since it does not count the separator
          have hsum : dir.length + path.length < pathLenMax := by
            rw [List.length_append, List.length_cons] at hfit
            omega
          simp only [concatCwdAndPath]
          rw [if_pos (List.length_pos_iff.mpr hne), if_pos hsum, if_pos hfit]

/-- **A path is resolved whole, or the function fails and stores nothing**, for every answer of
`realpath`; nothing but the target is ever resolved. -/
theorem real_path_exact (os : Os) (s : Logged δ Event) (realPath : List Byte) (realPathLen : ℕ)
    (hcwd : ∀ dir, cwd = some dir → cwdLen = dir.length) (hpath : path ≠ []) (hsize : 1 ≤ size)
    (hmax : size ≤ pathLenMax) :
    wp os (filesystemGetRealPath cwd cwdLen path path.length realPath size realPathLen)
      (ResolvesExactly os s cwd path size realPath realPathLen) (fun _ => False) s := by
  have hlen : 0 < path.length ∧ 0 < size := ⟨List.length_pos_iff.mpr hpath, hsize⟩
  have htarget : ∀ t, realPathTarget cwd cwdLen path path.length = some t ↔ Target cwd path t :=
    fun _ => realPathTarget_eq_some_iff hcwd
  unfold filesystemGetRealPath
  rw [if_pos hlen]
  cases hbuilt : realPathTarget cwd cwdLen path path.length with
  | none =>
    -- there is no target
    have hno : ∀ t, ¬ Target cwd path t := fun t h =>
      absurd (hbuilt.symm.trans ((htarget t).mpr h)) (by simp)
    refine (wp_pure _).mpr ⟨iff_of_false (by simp) ?_, fun t _ h => absurd h (hno t), fun _ =>
      ⟨rfl, rfl⟩, [], rfl, by simp⟩
    rintro ⟨t, r, h, -⟩
    exact hno t h
  | some t =>
    have ht : Target cwd path t := (htarget t).mp hbuilt
    have hrecord : ∀ p, ∀ e ∈ [Event.realpath t p], ∃ t r,
      e = .realpath t r ∧ Target cwd path t := by
      intro p e he
      exact ⟨t, p, List.mem_singleton.mp he, ht⟩
    refine (wp_bind _ _).mpr ((wp_call _ _).mpr ?_)
    cases hreal : os.realpath s.log t with
    | none =>
      -- it does not resolve
      have hno : ∀ t' r, Target cwd path t' → os.realpath s.log t' ≠ some r := by
        intro t' r h
        rw [h.unique ht, hreal]
        simp
      refine (wp_pure _).mpr ⟨iff_of_false (by simp) ?_, fun t' r h h' => absurd h' (hno t' r h),
        fun _ => ⟨rfl, rfl⟩, [_], rfl, hrecord none⟩
      rintro ⟨t', r, h, h', -⟩
      exact hno t' r h h'
    | some p =>
      obtain ⟨-, hn⟩ := os.realpath_canonical hreal
      have honly : ∀ t' r, Target cwd path t' → os.realpath s.log t' = some r → r = p := by
        intro t' r h h'
        rw [h.unique ht, hreal] at h'
        exact (Option.some.inj h').symm
      -- a resolution that is too long is cut off by `strnlen`, at a length that is refused too
      have hfits : size > strnlen p pathLenMax ↔ p.length < size := by
        rcases Nat.lt_or_ge p.length pathLenMax with hlt | hge
        · rw [strnlen_of_length_lt hn hlt.le]
        · rw [strnlen_of_le hn hge]
          omega
      simp only []
      by_cases hfit : size > strnlen p pathLenMax
      · have hlt := hfits.mp hfit
        have hstrnlen : strnlen p pathLenMax = p.length :=
          strnlen_of_length_lt hn (hlt.le.trans hmax)
        obtain ⟨k, hk⟩ : ∃ k, size - p.length = k + 1 := ⟨size - p.length - 1, by omega⟩
        rw [if_pos hfit]
        refine (wp_pure _).mpr ⟨iff_of_true rfl ⟨t, p, ht, hreal, hlt⟩, fun t' r h h' _ => ?_,
          fun h => absurd rfl h, [_], rfl, hrecord (some p)⟩
        rw [honly t' r h h']
        refine ⟨?_, hstrnlen⟩
        rw [strncpy_zero hlt.le, hk, List.replicate_succ]
        exact ⟨List.replicate k 0 ++ realPath.drop size, by simp⟩
      · rw [if_neg hfit]
        have hlong := fun h => hfit (hfits.mpr h)
        refine (wp_pure _).mpr ⟨iff_of_false (by simp) ?_, fun t' r h h' hr => ?_,
          fun _ => ⟨rfl, rfl⟩, [_], rfl, hrecord (some p)⟩
        · rintro ⟨t', r, h, h', hr⟩
          exact hlong (honly t' r h h' ▸ hr)
        · exact absurd (honly t' r h h' ▸ hr) hlong

/-- On a machine with the directory `/srv`, from `/` and with a buffer it just fits. -/
theorem real_path_exact_srv : wp Host.plain.os
    (filesystemGetRealPath (some [47]) 1 (ascii "srv") (ascii "srv").length [] 5 0)
    (ResolvesExactly Host.plain.os (St.zero) (some [47]) (ascii "srv") 5 [] 0)
    (fun _ => False) St.zero :=
  real_path_exact Host.plain.os St.zero [] 0 (by simp) (by decide) (by decide) (by decide)

end VsFtp
