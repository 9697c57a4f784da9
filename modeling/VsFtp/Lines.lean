import VsFtp.Host
import VsFtp.Handlers

/-!
# Lines that are sent from a buffer

`VSFTPServerSendReplyOwnBuf` and `VSFTPServerSendReplyOwnBufTransfer` append CRLF to a text
in a buffer and send both.  What is sent behind the text are always two bytes, but CRLF is
only stored as far as it fits with its NUL.

## Main definitions

* `lineEnd` — the two bytes that are sent behind a text.
* `SendsExactly` — the text and CRLF are sent from inside the buffer, or nothing is.

## Main results

* `lineEnd_eq_crlf_iff` — these bytes are CRLF if and only if there is room for three.
* `wp_sendReplyOwnBuf_text` — what is sent.
* `line_senders_exact_iff` — **the senders are exact if and only if three bytes are left in
  the buffer.**
* `long_name_cut` — a line that is not sent as it should be.
-/

namespace VsFtp

open CString Prog

variable {os : Os} {s : St} {E : St → Prop} {who : Slot} {text rest : List Byte} {size : ℕ}

/-! ### What is sent -/

/-- The two bytes behind a text, when `room` bytes of the buffer are left. -/
def lineEnd (room : ℕ) (behind : List Byte) : List Byte :=
  (List.range 2).map ((crlf.take (room - 1) ++ 0 :: behind).getD · 0)

/-- **A text ends in CRLF if and only if there is room for three bytes behind it.** -/
theorem lineEnd_eq_crlf_iff {room : ℕ} (hroom : 0 < room) (behind : List Byte) :
    lineEnd room behind = crlf ↔ 3 ≤ room := by
  match room, hroom with
  | 1, _ => exact iff_of_false (by simp [lineEnd, crlf, List.range_succ]) (by decide)
  | 2, _ => exact iff_of_false (by simp [lineEnd, crlf, List.range_succ]) (by decide)
  | room + 3, _ =>
    refine iff_of_true ?_ (by omega)
    have htake : crlf.take (room + 3 - 1) = crlf := List.take_of_length_le (by simp [crlf])
    rw [lineEnd, htake]
    rfl

/-- Appending CRLF to a text in a buffer, as far as it fits. -/
theorem snprintf_text (hfit : text.length < size) (hsize : size < 2 ^ 64) :
    snprintf (text ++ rest) text.length (sizeSub size text.length) crlf =
      text ++ (crlf.take (size - text.length - 1) ++ 0 ::
        rest.drop (crlf.take (size - text.length - 1) ++ [0]).length) := by
  rw [sizeSub_of_le hfit.le hsize, snprintf, if_neg (by omega), overwrite, List.take_left' rfl,
    List.drop_length_add_append]
  simp

/-- **What is sent are the text and two bytes.** -/
theorem wp_sendReplyOwnBuf_text (hlen : 0 < text.length) (hfit : text.length < size)
    (hsize : size < 2 ^ 64) :
    wp os (sendReplyOwnBuf who (text ++ rest) size text.length) (fun out s' => ∃ w behind,
      out.1 = status w ∧
      out.2 = snprintf (text ++ rest) text.length (sizeSub size text.length) crlf ∧
      s' = ⟨s.data, .write who (s.data.sock who)
        (text ++ lineEnd (size - text.length) behind) w :: s.log⟩) E s := by
  unfold sendReplyOwnBuf
  rw [if_pos ⟨by omega, hlen⟩]
  refine ⟨_, rest.drop (crlf.take (size - text.length - 1) ++ [0]).length ++ os.behind s.log,
    rfl, rfl, ?_⟩
  have hbytes : (List.range (text.length + 2)).map
      ((snprintf (text ++ rest) text.length (sizeSub size text.length) crlf
        ++ os.behind s.log).getD · 0) = text ++ lineEnd (size - text.length)
        (rest.drop (crlf.take (size - text.length - 1) ++ [0]).length ++ os.behind s.log) := by
    rw [snprintf_text hfit hsize, List.append_assoc, map_getD_range_append, lineEnd]
    simp
  rw [hbytes]

/-! ### Exact or failing -/

/-- A line sender, called on a text in a buffer of the given size: it hands exactly the text
and CRLF to `write`, from inside the buffer, or it fails and writes nothing. -/
def SendsExactly (os : Os) (send : List Byte → ℕ → ℕ → ServerM (Int × List Byte)) (who : Slot)
    (text rest : List Byte) (size : ℕ) (s : St) : Prop :=
  wp os (send (text ++ rest) size text.length) (fun out s' =>
    (text.length + 2 ≤ size ∧
      ∃ w, s' = ⟨s.data, .write who (s.data.sock who) (text ++ crlf) w :: s.log⟩) ∨
    (out.1 ≠ 0 ∧ s' = s)) (fun _ => False) s

theorem sendsExactly_iff (hlen : 0 < text.length) (hfit : text.length < size)
    (hsize : size < 2 ^ 64) :
    SendsExactly os (sendReplyOwnBuf who) who text rest size s ↔ text.length + 3 ≤ size := by
  have hroom : 3 ≤ size - text.length ↔ text.length + 3 ≤ size := by omega
  have hwp := @wp_sendReplyOwnBuf_text os s (fun _ => False) who text rest size hlen hfit hsize
  obtain ⟨out, s', hrun, w, behind, -, -, hs'⟩ := exists_run_of_wp hwp
  rw [SendsExactly, wp_of_run hrun, ← hroom, ← lineEnd_eq_crlf_iff (by omega) behind, hs']
  constructor
  · rintro (⟨-, w', h⟩ | ⟨-, h⟩)
    · -- the record of the write says what was sent
      have hlog := congrArg Logged.log h
      simp only [List.cons.injEq, Event.write.injEq] at hlog
      exact List.append_cancel_left hlog.1.2.2.1
    · have hlog := congrArg (List.length ∘ Logged.log) h
      simp at hlog
  · intro h
    rw [lineEnd_eq_crlf_iff (by omega)] at h
    exact Or.inl ⟨by omega, w, by rw [(lineEnd_eq_crlf_iff (by omega) behind).mpr h]⟩

/-- **The line senders are exact or fail if and only if three bytes are left behind the
text**, for CRLF and a NUL. -/
theorem line_senders_exact_iff (hlen : 0 < text.length) (hfit : text.length < size)
    (hsize : size < 2 ^ 64) :
    (SendsExactly os serverSendReplyOwnBuf .client text rest size s ↔ text.length + 3 ≤ size) ∧
    (SendsExactly os serverSendReplyOwnBufTransfer .transferClient text rest size s ↔
      text.length + 3 ≤ size) :=
  ⟨sendsExactly_iff hlen hfit hsize, sendsExactly_iff hlen hfit hsize⟩

/-- The longest line that both send exactly. -/
theorem line_senders_exact_longest :
    SendsExactly Host.plain.os serverSendReplyOwnBuf .client (List.replicate 253 97) [0] pathLenMax
      St.zero ∧
    SendsExactly Host.plain.os serverSendReplyOwnBufTransfer .transferClient
      (List.replicate 253 97) [0] pathLenMax St.zero := by
  have hmax : pathLenMax = 256 := rfl
  have hsends : ∀ text : List Byte, text.length = 253 →
      SendsExactly Host.plain.os serverSendReplyOwnBuf .client text [0] pathLenMax St.zero ∧
      SendsExactly Host.plain.os serverSendReplyOwnBufTransfer .transferClient text [0] pathLenMax
        St.zero := by
    intro text hlen
    have hiff := @line_senders_exact_iff Host.plain.os St.zero text [0] pathLenMax (by omega)
      (by omega) (by decide)
    exact ⟨hiff.1.mpr (by omega), hiff.2.mpr (by omega)⟩
  exact hsends _ List.length_replicate

theorem not_sendsExactly {s : St} (hlen : text.length = 254) :
    ¬ SendsExactly os serverSendReplyOwnBufTransfer .transferClient text rest pathLenMax s := by
  have hmax : pathLenMax = 256 := rfl
  intro h
  have := (sendsExactly_iff (by omega) (by omega) (by omega)).mp h
  omega

/-- **The name of a file that has 254 bytes is not sent as a line**: the buffer of a listing
has room for the carriage return only. -/
theorem long_name_cut : ¬ SendsExactly Host.plain.os serverSendReplyOwnBufTransfer .transferClient
    (List.replicate 254 97) [0] pathLenMax St.zero := not_sendsExactly List.length_replicate

end VsFtp
