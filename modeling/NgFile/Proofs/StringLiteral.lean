import NgFile.Proofs.Lexeme

/-!
# String literals

An escape denotes at most as many code points as it has characters after its backslash, so
a value never has more characters than the body it is read from, and as many only if the
body has no escapes.
-/

namespace NgFile

namespace Syntax

namespace Literal

/-! ## The length of escapes -/

theorem length_unicodeEscape? {t after : Text} {n : Nat} (h : unicodeEscape? t = some (n, after)) :
    after.length < t.length := by
  unfold unicodeEscape? at h
  split at h
  · rename_i rest
    dsimp only at h
    split at h
    · rename_i hdrop
      have hlength := congrArg List.length hdrop
      simp only [List.length_drop, List.length_cons] at hlength
      repeat' split at h
      all_goals cases h
      simp only [List.length_cons]
      omega
    · cases h
  · repeat' split at h
    all_goals cases h
    simp only [List.length_cons]
    omega
  · cases h

theorem length_pairEscape? {t after : Text} {n : Nat} (h : pairEscape? t = some (n, after)) :
    after.length < t.length := by
  unfold pairEscape? at h
  repeat' split at h
  all_goals first
    | simp only [Option.some.injEq, Prod.mk.injEq] at h
      obtain ⟨_, rfl⟩ := h
      simp only [List.length_cons]
      omega
    | cases h

theorem length_octalEscape (first : Char) (rest : Text) :
    (octalEscape first rest).2.length ≤ rest.length := by
  simp only [octalEscape, List.length_drop]
  omega

/-- An escape denotes no more code points than it has characters. -/
theorem length_escape? {t after : Text} {points : List Nat}
    (h : escape? false t = some (points, after)) : points.length + after.length ≤ t.length := by
  unfold escape? at h
  split at h
  case h_1 | h_10 => cases h
  case h_9 =>
    obtain ⟨n, _, hn⟩ := Option.map_eq_some_iff.1 h
    simp only [Prod.mk.injEq] at hn
    obtain ⟨rfl, rfl⟩ := hn
    simp only [List.length_cons, List.length_nil]
    omega
  case h_11 rest =>
    obtain ⟨⟨n, after'⟩, hescape, hn⟩ := Option.map_eq_some_iff.1 h
    simp only [Prod.mk.injEq] at hn
    obtain ⟨rfl, rfl⟩ := hn
    have hafter : after'.length < rest.length := by
      cases hpair : pairEscape? rest with
      | none =>
          rw [hpair] at hescape
          exact length_unicodeEscape? hescape
      | some pair =>
          rw [hpair] at hescape
          cases hescape
          exact length_pairEscape? hpair
    simp only [List.length_cons, List.length_nil]
    omega
  case h_12 c rest _ _ _ _ _ _ _ _ _ _ =>
    have hoctal := length_octalEscape c rest
    simp only [Bool.false_eq_true, if_false] at h
    repeat' split at h
    all_goals
      simp only [Option.some.injEq, Prod.mk.injEq] at h
      obtain ⟨rfl, rfl⟩ := h
      simp only [List.length_cons, List.length_nil]
      omega
  all_goals
    cases h
    simp only [List.length_cons, List.length_nil]
    omega

/-! ## The length of values -/

/--
A body has at least as many characters as it denotes code points, and more if there is an
escape in it.
-/
theorem length_codePoints? {fuel : Nat} {body : Text} {points : List Nat}
    (h : codePoints? false fuel body = some points) :
    points.length ≤ body.length ∧ ('\\' ∈ body → points.length < body.length) := by
  -- An escape may take several characters at once, so the induction is on the fuel.
  induction fuel generalizing body points with
  | zero =>
      cases body with
      | nil =>
          cases h
          simp
      | cons c rest => cases h
  | succ fuel ih =>
      rw [codePoints?.eq_def] at h
      split at h
      · cases h
        simp
      · rename_i heq
        cases heq
      · rename_i fuel' rest heq
        cases heq
        split at h
        · rename_i escaped after hescape
          obtain ⟨more, hmore, rfl⟩ := Option.map_eq_some_iff.1 h
          have hlength := length_escape? hescape
          have hrest := (ih hmore).1
          simp only [List.length_append, List.length_cons]
          omega
        · cases h
      · rename_i fuel' c rest hc heq
        cases heq
        simp only [Bool.false_eq_true, and_false, if_false] at h
        obtain ⟨more, hmore, rfl⟩ := Option.map_eq_some_iff.1 h
        obtain ⟨hle, hlt⟩ := ih hmore
        refine ⟨by simpa using hle, fun hmem => ?_⟩
        rcases List.mem_cons.1 hmem with rfl | hmem
        · exact absurd rfl hc
        · simpa using hlt hmem

theorem eq_of_stringValue {points : List Nat} {value : Text}
    (h : stringValue points = ⟨value, false⟩) : value = points.map Char.ofNat := by
  unfold stringValue at h
  dsimp only at h
  split at h
  · cases h
  · cases h
    rfl

/-- A value is no longer than its body, and shorter if there is an escape in the body. -/
theorem length_ofStringBody? {body value : Text} (h : ofStringBody? body = some ⟨value, false⟩) :
    value.length ≤ body.length ∧ ('\\' ∈ body → value.length < body.length) := by
  obtain ⟨points, hpoints, hvalue⟩ := Option.map_eq_some_iff.1 h
  have hlength := length_codePoints? hpoints
  rwa [eq_of_stringValue hvalue, List.length_map]

theorem ofStringBody?_of_not_mem {body : Text} (h : '\\' ∉ body) :
    ofStringBody? body = some ⟨body, false⟩ := by
  have hpoints := Lexeme.codePoints?_verbatim h (Nat.le_refl body.length)
  simp [ofStringBody?, hpoints, Lexeme.stringValue_toNat]

/-! ## The end of a string -/

theorem splitString_cons_plain {q c : Char} {rest : Text} (hc : c ≠ '\\') :
    splitString q (c :: rest) =
      if c = q then some ([], rest)
      else if c = '\n' ∨ c = '\r' ∨ c = '\\' then none
      else (splitString q rest).map fun (body, after) => (c :: body, after) := by
  rw [splitString.eq_def]
  split <;> simp_all

/-- What is split is the body, the quote and what follows. -/
theorem append_of_splitString {q : Char} {s body after : Text}
    (h : splitString q s = some (body, after)) : s = body ++ q :: after := by
  induction s using splitString.induct q generalizing body with
  | case1 => cases h
  | case2 rest ih =>
      rw [splitString] at h
      obtain ⟨⟨body', after'⟩, hrest, hsplit⟩ := Option.map_eq_some_iff.1 h
      cases hsplit
      rw [ih hrest]
      rfl
  | case3 c rest hreturn ih =>
      rw [splitString.eq_3 _ _ _ hreturn] at h
      obtain ⟨⟨body', after'⟩, hrest, hsplit⟩ := Option.map_eq_some_iff.1 h
      cases hsplit
      rw [ih hrest]
      rfl
  | case4 rest hfeed hescape =>
      rw [splitString.eq_4 _ _ _ hfeed hescape, if_pos rfl] at h
      cases h
      rfl
  | case5 c rest hfeed hescape hquote hend =>
      rw [splitString.eq_4 _ _ _ hfeed hescape, if_neg hquote, if_pos hend] at h
      cases h
  | case6 c rest hfeed hescape hquote hend ih =>
      rw [splitString.eq_4 _ _ _ hfeed hescape, if_neg hquote, if_neg hend] at h
      obtain ⟨⟨body', after'⟩, hrest, hsplit⟩ := Option.map_eq_some_iff.1 h
      cases hsplit
      rw [ih hrest]
      rfl

/-- Where a string ends does not depend on what comes later. -/
theorem splitString_append_right {q : Char} (hq : q ≠ '\\') {s body after : Text}
    (h : splitString q s = some (body, after)) (t : Text) :
    splitString q (s ++ t) = some (body, after ++ t) := by
  induction s using splitString.induct q generalizing body with
  | case1 => cases h
  | case2 rest ih =>
      rw [splitString] at h
      obtain ⟨⟨body', after'⟩, hrest, hsplit⟩ := Option.map_eq_some_iff.1 h
      cases hsplit
      simp only [List.cons_append, splitString, ih hrest, Option.map_some]
  | case3 c rest hreturn ih =>
      rw [splitString.eq_3 _ _ _ hreturn] at h
      obtain ⟨⟨body', after'⟩, hrest, hsplit⟩ := Option.map_eq_some_iff.1 h
      cases hsplit
      have hreturn' : ∀ rest', c = '\r' → rest ++ t = '\n' :: rest' → False := by
        intro rest' hc heq
        cases rest with
        | nil => cases hrest
        | cons d rest =>
            cases heq
            exact hreturn rest hc rfl
      rw [List.cons_append, List.cons_append, splitString.eq_3 _ _ _ hreturn', ih hrest,
        Option.map_some]
  | case4 rest hfeed hescape =>
      rw [splitString_cons_plain hq, if_pos rfl] at h
      cases h
      rw [List.cons_append, splitString_cons_plain hq, if_pos rfl]
  | case5 c rest hfeed hescape hquote hend =>
      rw [splitString.eq_4 _ _ _ hfeed hescape, if_neg hquote, if_pos hend] at h
      cases h
  | case6 c rest hfeed hescape hquote hend ih =>
      have hc : c ≠ '\\' := fun hc => hend (.inr (.inr hc))
      rw [splitString_cons_plain hc, if_neg hquote, if_neg hend] at h
      obtain ⟨⟨body', after'⟩, hrest, hsplit⟩ := Option.map_eq_some_iff.1 h
      cases hsplit
      rw [List.cons_append, splitString_cons_plain hc, if_neg hquote, if_neg hend, ih hrest,
        Option.map_some]

/-- A string without escapes holds no quote and no end of a line. -/
theorem plain_of_splitString {q : Char} {s body after : Text} (hescape : '\\' ∉ body)
    (h : splitString q s = some (body, after)) :
    ∀ c ∈ body, c ≠ q ∧ c ≠ '\n' ∧ c ≠ '\r' := by
  induction body generalizing s with
  | nil => simp
  | cons c body ih =>
      obtain ⟨hc, hbody⟩ := not_or.1 (mt List.mem_cons.2 hescape)
      have hcons := append_of_splitString h
      rw [hcons, List.cons_append, splitString_cons_plain (Ne.symm hc)] at h
      split at h
      · cases h
      · rename_i hquote
        split at h
        · cases h
        · rename_i hend
          obtain ⟨⟨body', after'⟩, hrest, hsplit⟩ := Option.map_eq_some_iff.1 h
          cases hsplit
          refine List.forall_mem_cons.2 ⟨⟨hquote, fun hc => hend (.inl hc), fun hc => ?_⟩, ?_⟩
          · exact hend (.inr (.inl hc))
          · exact ih hbody hrest

/-! ## Literals and their values -/

def Denotes (literal value : Text) : Prop :=
  ∃ q body, (q = '\'' ∨ q = '"') ∧ literal = q :: (body ++ [q]) ∧
    splitString q (body ++ [q]) = some (body, []) ∧ ofStringBody? body = some ⟨value, false⟩

theorem denotes_of_isVerbatim {t : Text} (h : Lexeme.IsVerbatim t) :
    Denotes ("'" ++ t ++ "'") t := by
  have hescape : '\\' ∉ t := fun hmem => (h _ hmem).2.1 rfl
  exact ⟨'\'', t, .inl rfl, rfl, Lexeme.splitString_append h (by decide),
    ofStringBody?_of_not_mem hescape⟩

end Literal

end Syntax

end NgFile
