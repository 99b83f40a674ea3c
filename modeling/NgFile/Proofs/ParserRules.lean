import NgFile.Proofs.Declarations
import NgFile.Proofs.ParserRun

/-!
# What parsers ensure

Rules for what holds of the cursors in front of a parser and behind it, and of the value between
them.  A parser that only looks at the tokens in front of it passes nothing; that is found out
from its parts.
-/

namespace NgFile

namespace Syntax

namespace Parser

/-! ## Rules -/

/-- Whatever value a parser yields is related to the cursors in front of it and behind it. -/
def Ensures {α : Type} (p : Parser α) (Q : Context → Cursor → α → Cursor → Prop) : Prop :=
  ∀ c cur a after, p c cur = .ok (a, after) → Q c cur a after

class Still {α : Type} (p : Parser α) : Prop where
  ensures : Ensures p fun _ cur _ after => after = cur

def StillAt {α : Type} (p : Parser α) (a₀ : α) : Prop :=
  Ensures p fun _ cur a after => a = a₀ → after = cur

section Rules

variable {α β : Type} {p : Parser α} {f : α → Parser β} {P : β → Prop}
variable {Q : Context → Cursor → β → Cursor → Prop}

theorem exists_of_bind {c : Context} {cur after : Cursor} {b : β}
    (h : (p >>= f) c cur = .ok (b, after)) :
    ∃ a mid, p c cur = .ok (a, mid) ∧ f a c mid = .ok (b, after) := by
  rw [bind_apply] at h
  cases hrun : p c cur with
  | error e =>
      rw [hrun] at h
      cases h
  | ok result =>
      obtain ⟨a, mid⟩ := result
      rw [hrun] at h
      exact ⟨a, mid, rfl, h⟩

theorem ensures_pure {b : β} (h : ∀ c cur, Q c cur b cur) : Ensures (pure b : Parser β) Q := by
  intro c cur b' after hb
  cases hb
  exact h c cur

theorem ensures_of_yields {p : Parser β} (hp : Yields p P)
    (h : ∀ c cur b after, P b → Q c cur b after) : Ensures p Q :=
  fun c cur b after hb => h c cur b after (hp c cur b after hb)

theorem ensures_fail : Ensures (fail : Parser β) Q :=
  ensures_of_yields (yields_fail (P := fun _ => False)) fun _ _ _ _ h => h.elim

theorem ensures_ite {condition : Prop} [Decidable condition] {p q : Parser β}
    (hp : Ensures p Q) (hq : Ensures q Q) : Ensures (if condition then p else q) Q := by
  split
  · exact hp
  · exact hq

theorem yields_ite {condition : Prop} [Decidable condition] {p q : Parser β} (hp : Yields p P)
    (hq : Yields q P) : Yields (if condition then p else q) P := by
  split
  · exact hp
  · exact hq

/-- What passes nothing in front of a parser does not matter. -/
theorem ensures_still [hp : Still p] (hf : ∀ a, Ensures (f a) Q) : Ensures (p >>= f) Q := by
  intro c cur b after h
  obtain ⟨a, mid, hrun, hrest⟩ := exists_of_bind h
  obtain rfl := hp.ensures c cur a mid hrun
  exact hf a c mid b after hrest

/-- Either nothing has been passed, or the values that come of it are enough. -/
theorem ensures_stillAt {a₀ : α} (hp : StillAt p a₀) (hsame : Ensures (f a₀) Q)
    (hother : ∀ a, a ≠ a₀ → Yields (f a) P) (hQ : ∀ c cur b after, P b → Q c cur b after) :
    Ensures (p >>= f) Q := by
  intro c cur b after h
  obtain ⟨a, mid, hrun, hrest⟩ := exists_of_bind h
  by_cases ha : a = a₀
  · obtain rfl := hp c cur a mid hrun ha
    subst ha
    exact hsame c mid b after hrest
  · exact hQ c cur b after (hother a ha c mid b after hrest)

instance (a : α) : Still (pure a : Parser α) :=
  ⟨ensures_pure fun _ _ => rfl⟩

instance [Still p] [∀ a, Still (f a)] : Still (p >>= f) :=
  ⟨ensures_still fun _ => Still.ensures⟩

instance : Still (fail : Parser α) :=
  ⟨ensures_fail⟩

instance {condition : Prop} [Decidable condition] {q : Parser α} [Still p] [Still q] :
    Still (if condition then p else q) := by
  split <;> infer_instance

end Rules

/-! ## Parsers that pass nothing -/

section Still

instance : Still peek := by
  refine ⟨fun c cur token after h => ?_⟩
  unfold peek at h
  split at h <;> cases h <;> rfl

instance (n : Nat) : Still (peekAhead n) := by
  refine ⟨fun c cur token after h => ?_⟩
  unfold peekAhead at h
  split at h <;> cases h <;> rfl

instance : Still peekAll :=
  ⟨fun _ _ _ _ h => by cases h; rfl⟩

instance : Still context :=
  ⟨fun _ _ _ _ h => by cases h; rfl⟩

instance (m : Mark) : Still (since m) :=
  ⟨fun _ _ _ _ h => by cases h; rfl⟩

instance : Still mark := inferInstanceAs (Still (_ >>= _))

instance (p : Punct) : Still (atPunct p) := inferInstanceAs (Still (_ >>= _))

instance (k : Keyword) : Still (atWord k) := inferInstanceAs (Still (_ >>= _))

instance : Still atNewline := inferInstanceAs (Still (_ >>= _))

instance : Still atOperandWord := inferInstanceAs (Still (_ >>= _))

instance : Still atAsyncArrow := inferInstanceAs (Still (_ >>= _))

instance (condition : Bool) : Still (require condition) :=
  inferInstanceAs (Still (if condition = true then pure () else fail))

theorem stillAt_eat (p : Punct) : StillAt (eat p) false := by
  refine ensures_still fun atPunct => ?_
  split
  · exact ensures_of_yields (P := (· = true)) (yields_then fun _ => yields_pure rfl)
      fun _ _ _ _ h hfalse => by rw [h] at hfalse; cases hfalse
  · exact ensures_pure fun _ _ _ => rfl

theorem stillAt_attempt {α : Type} (p : Parser α) : StillAt (attempt p) none := by
  intro c cur o after h ho
  subst ho
  unfold attempt at h
  split at h
  · cases h
  · cases h
    rfl

end Still

end Parser

end Syntax

end NgFile
