import VsFtp.Lib.Follow
import VsFtp.Lib.Relate
import VsFtp.Lib.Triple

/-!
# Properties that a program has from its parts

A property of programs that holds of `pure`, and that sequencing keeps, holds of a program if it
holds of the calls that the program is put together from.  So what a program is put together from
can be said once, for all such properties: that an assertion on the data and the phase of a monitor
is kept, that two runs stay related, or that a run is the same in another environment.

## Main definitions

* `Prog.Modular` — a property that sequencing keeps.

## Main results

* `Prog.Modular.ite`, `Prog.Modular.onOk` — branches.
* `Prog.Modular.tracks`, `Prog.Modular.keeps` — **assertions and relations that are kept.**
* `Prog.Modular.follows`, `Prog.Modular.localTo` — **runs in another environment.**
-/

namespace Prog

variable {ω σ δ ε π : Type}

/-- A property that holds of a program if it holds of its parts. -/
structure Modular (P : (α : Type) → Prog ω σ α → Prop) : Prop where
  pure : ∀ {α : Type} (a : α), P α (Pure.pure a)
  bind : ∀ {α β : Type} {m : Prog ω σ α} {f : α → Prog ω σ β}, P α m → (∀ a, P β (f a)) →
    P β (m >>= f)

namespace Modular

variable {P : (α : Type) → Prog ω σ α → Prop} {α : Type}

theorem ite (_ : Modular P) {c : Prop} [Decidable c] {m m' : Prog ω σ α} (ht : P α m)
    (hf : P α m') : P α (if c then m else m') := by
  split
  · exact ht
  · exact hf

theorem onOk (h : Modular P) {retval : Int} {next : Prog ω σ Int} (hn : P Int next) :
    P Int (onOk retval next) := h.ite hn (h.pure retval)

/-- **An assertion that is kept** by the parts of a program is kept by the program. -/
theorem tracks {K : Contract ε π} {w : ω} {E R : δ → π → Prop} :
    Modular fun (α : Type) (m : Prog ω (Logged δ ε) α) => Tracks K w E R m fun _ => R :=
  ⟨fun _ => .pure fun _ _ h => h, fun hm hf => .bind hm hf⟩

/-- **A relation between two runs** that the parts of a program keep is kept by the program. -/
theorem keeps {w₁ w₂ : ω} {E T : σ → σ → Prop} :
    Modular fun (α : Type) (m : Prog ω σ α) => Keeps w₁ w₂ E T m :=
  ⟨fun a => .pure a, fun hm hf => .bind hm hf⟩

/-- **Another environment** in which the parts of a program do the same, up to bad records, is one
in which the program does. -/
theorem follows {bad : ε → Prop} {w w' : ω} :
    Modular fun (α : Type) (m : Prog ω (Logged δ ε) α) => Follows bad w w' m :=
  ⟨fun a => .pure a, fun hm hf => .bind hm hf⟩

/-- **Asking the environment only in the course of the run** is kept as well. -/
theorem localTo {alike : List ε → Prop} {w w' : ω} :
    Modular fun (α : Type) (m : Prog ω (Logged δ ε) α) => Local alike w w' m :=
  ⟨fun a => .pure a, fun hm hf => .bind hm hf⟩

end Modular

end Prog
