import NgFile.Proofs.TokensKept

/-!
# What parsers find

Rules for the values that a parser yields in front of tokens of a certain kind, such as tokens
that stand in the text.  What is left of such tokens must be of that kind again; then a value
that is found in one place of the grammar is found wherever this place is reached.
-/

namespace NgFile

namespace Syntax

/-- A property of tokens that whatever is left of them has too. -/
class Lasting (source : Text) (I : List Token → Prop) : Prop where
  of_leads : ∀ {tokens left : List Token}, Leads source tokens left → I tokens → I left

instance (source : Text) : Lasting source (Standing source) :=
  ⟨Leads.standing⟩

structure StandingFrom (source : Text) (place : Nat) (tokens : List Token) : Prop where
  standing : Standing source tokens
  inOrder : InOrder place tokens

instance (source : Text) (place : Nat) : Lasting source (StandingFrom source place) :=
  ⟨fun hleads h => ⟨hleads.standing h.standing, hleads.inOrder h.inOrder⟩⟩

namespace Parser

/-- What a parser yields in front of tokens of a certain kind has a property. -/
def FindsBefore {α : Type} (source : Text) (I : List Token → Prop) (p : Parser α)
    (P : α → Prop) : Prop :=
  Ensures p fun c cur a _ => c.source = source → I cur.rest → P a

section Rules

variable {α β : Type} {source : Text} {I : List Token → Prop}
variable {p : Parser α} {f : α → Parser β} {P : α → Prop} {Q : β → Prop}

theorem finds_of_yields (h : Yields p P) : FindsBefore source I p P :=
  fun c cur a after hrun _ _ => h c cur a after hrun

/-- What is found in front of tokens of a kind is found in front of those of a narrower one. -/
theorem FindsBefore.narrow {J : List Token → Prop} (h : FindsBefore source I p P)
    (hJ : ∀ tokens, J tokens → I tokens) : FindsBefore source J p P :=
  fun c cur a after hrun hsource hcur => h c cur a after hrun hsource (hJ _ hcur)

theorem FindsBefore.imp {P' : α → Prop} (h : FindsBefore source I p P) (hP : ∀ a, P a → P' a) :
    FindsBefore source I p P' :=
  fun c cur a after hrun hsource hcur => hP a (h c cur a after hrun hsource hcur)

theorem finds_pure {a : α} (h : P a) : FindsBefore source I (pure a) P :=
  finds_of_yields (yields_pure h)

theorem yields_none : Yields (pure none : Parser (Option α)) fun more => ∀ a ∈ more, P a :=
  yields_pure (by simp)

theorem finds_none :
    FindsBefore source I (pure none : Parser (Option α)) fun more => ∀ a ∈ more, P a :=
  finds_of_yields yields_none

theorem finds_fail : FindsBefore source I (fail : Parser α) P :=
  finds_of_yields yields_fail

/-- Behind a mark the tokens begin at the place that it marks. -/
theorem finds_mark {place : Nat} {f : Mark → Parser β}
    (hf : ∀ m, FindsBefore source (StandingFrom source m.start) (f m) Q) :
    FindsBefore source (StandingFrom source place) (mark >>= f) Q := by
  rintro c cur b after h rfl hcur
  obtain ⟨m, mid, hmark, hrest⟩ := exists_of_bind h
  obtain rfl := (inferInstance : Still mark).ensures c cur m mid hmark
  refine hf m c mid b after hrest rfl ⟨hcur.standing, ?_⟩
  obtain ⟨rest, stop, defaults, spreads⟩ := mid
  cases rest with
  | nil => trivial
  | cons token rest =>
      cases hmark
      exact ⟨Nat.le_refl _, hcur.inOrder.2⟩

theorem finds_within {change : Context → Context} [hchange : SameSource change]
    (h : FindsBefore source I p P) : FindsBefore source I (within change p) P :=
  fun c cur a after hrun hsource =>
    h (change c) cur a after hrun ((hchange.source_eq c).trans hsource)

variable [Lasting source I]

theorem finds_bind [Keeps p] (hp : FindsBefore source I p P)
    (hf : ∀ a, P a → FindsBefore source I (f a) Q) : FindsBefore source I (p >>= f) Q := by
  rintro c cur b after h rfl hcur
  obtain ⟨a, mid, hrun, hrest⟩ := exists_of_bind h
  exact hf a (hp c cur a mid hrun rfl hcur) c mid b after hrest rfl
    (Lasting.of_leads (Keeps.ensures c cur a mid hrun) hcur)

/-- For a parser in front whose parts have to be told apart first. -/
theorem finds_andThen (_ : Keeps p) (hp : FindsBefore source I p P)
    (hf : ∀ a, P a → FindsBefore source I (f a) Q) : FindsBefore source I (p >>= f) Q :=
  finds_bind hp hf

/-- What is found in front does not matter. -/
theorem finds_then [Keeps p] (hf : ∀ a, FindsBefore source I (f a) Q) :
    FindsBefore source I (p >>= f) Q :=
  finds_bind (P := fun _ => True) (finds_of_yields fun _ _ _ _ _ => trivial) fun a _ => hf a

theorem finds_iterate {step : α → Parser (Option α)} [∀ a, Keeps (step a)]
    (hstep : ∀ a, P a → FindsBefore source I (step a) fun next => ∀ b ∈ next, P b) {a : α}
    (ha : P a) : FindsBefore source I (iterate step a) P := by
  have hrefine (limit : Nat) (a : α) (ha : P a) :
      FindsBefore source I (refine step limit a) P := by
    induction limit generalizing a with
    | zero => exact finds_fail
    | succ limit ih =>
        refine finds_bind (hstep a ha) fun next hnext => ?_
        cases next with
        | none => exact finds_pure ha
        | some b => exact ih b (hnext b rfl)
  exact finds_then fun _ => hrefine _ a ha

theorem finds_many {step : Parser (Option α)} [Keeps step]
    (h : FindsBefore source I step fun o => ∀ a ∈ o, P a) :
    FindsBefore source I (many step) fun as => ∀ a ∈ as, P a := by
  have hcollect (limit : Nat) (acc : List α) (hacc : ∀ a ∈ acc, P a) :
      FindsBefore source I (collect step limit acc) fun as => ∀ a ∈ as, P a := by
    induction limit generalizing acc with
    | zero => exact finds_fail
    | succ limit ih =>
        refine finds_bind h fun o ho => ?_
        cases o with
        | none => exact finds_pure fun a ha => hacc a (List.mem_reverse.1 ha)
        | some a => exact ih _ (List.forall_mem_cons.2 ⟨ho a rfl, hacc⟩)
  exact finds_then fun _ => hcollect _ [] (by simp)

theorem finds_commaList {item : Parser α} [Keeps item] (close : Punct)
    (h : FindsBefore source I item P) :
    FindsBefore source I (commaList close item) fun read => ∀ a ∈ read.1, P a := by
  rw [commaList_eq]
  have hstep : FindsBefore source I (listStep close item) fun o => ∀ pair ∈ o, P pair.1 := by
    refine finds_then fun closed => ?_
    split
    · exact finds_none
    · refine finds_bind h fun a ha => finds_then fun comma => ?_
      split
      · exact finds_pure (by simpa using ha)
      · refine finds_then fun closed => ?_
        split
        · exact finds_pure (by simpa using ha)
        · exact finds_fail
  have : Keeps (listStep close item) := inferInstanceAs (Keeps (_ >>= _))
  refine finds_bind (finds_many hstep) fun pairs hpairs => finds_pure fun a ha => ?_
  obtain ⟨pair, hpair, rfl⟩ := List.mem_map.1 ha
  exact hpairs pair hpair

end Rules

end Parser

end Syntax

end NgFile
