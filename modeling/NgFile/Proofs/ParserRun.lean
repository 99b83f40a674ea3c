import NgFile.Syntax.Parser
import NgFile.Proofs.Lexeme

/-!
# Running parsers

What the basic parsers do in front of plain tokens, and what a loop yields when its
rounds are known one by one.  A round either yields a value and moves the cursor, or
ends the loop; a loop whose rounds are fewer than its bound yields their values.
-/

namespace NgFile

namespace Syntax

namespace Parser

open Lexeme

variable {α β : Type} {c : Context} {cur mid after : Cursor}

theorem pure_apply (a : α) (c : Context) (cur : Cursor) :
    (pure a : Parser α) c cur = .ok (a, cur) := rfl

theorem bind_apply (p : Parser α) (f : α → Parser β) (c : Context) (cur : Cursor) :
    (p >>= f) c cur =
      match p c cur with
      | .ok (a, after) => f a c after
      | .error e => .error e := rfl

theorem within_apply (change : Context → Context) (p : Parser α) :
    within change p c cur = p (change c) cur := rfl

theorem nested_nested (c : Context) : nested (nested c) = nested c := rfl

/-! ## Tokens in front of the cursor -/

section Tokens

variable {kind : TokenKind} {place : Place} {rest : List Token} {stop : Nat}
variable {defaults spreads : List Nat}

theorem peek_cons (t : Token) :
    peek c ⟨t :: rest, stop, defaults, spreads⟩ =
      .ok (t, ⟨t :: rest, stop, defaults, spreads⟩) := rfl

theorem mark_cons (t : Token) :
    mark c ⟨t :: rest, stop, defaults, spreads⟩ =
      .ok (⟨t.start, t.comments⟩, ⟨t :: rest, stop, defaults, spreads⟩) := rfl

theorem mark_ok (c : Context) (cur : Cursor) : ∃ m, mark c cur = .ok (m, cur) := by
  obtain ⟨rest, stop, defaults, spreads⟩ := cur
  cases rest with
  | nil => exact ⟨_, rfl⟩
  | cons t rest => exact ⟨_, rfl⟩

theorem peekAhead_ok (n : Nat) (c : Context) (cur : Cursor) :
    ∃ t, peekAhead n c cur = .ok (t, cur) := by
  unfold peekAhead
  split
  · exact ⟨_, rfl⟩
  · exact ⟨_, rfl⟩

theorem isPunct_plain_ne {p : Punct} (h : kind ≠ .punct p) :
    isPunct p (plainToken kind place) = false := by
  cases kind with
  | punct q =>
      have hne : p ≠ q := fun hpq => h (by rw [hpq])
      simp [isPunct, plainToken, hne]
  | _ => rfl

theorem atPunct_hit (p : Punct) :
    atPunct p c ⟨plainToken (.punct p) place :: rest, stop, defaults, spreads⟩ =
      .ok (true, ⟨plainToken (.punct p) place :: rest, stop, defaults, spreads⟩) := by
  cases p <;> rfl

theorem atPunct_miss {p : Punct} (h : kind ≠ .punct p) :
    atPunct p c ⟨plainToken kind place :: rest, stop, defaults, spreads⟩ =
      .ok (false, ⟨plainToken kind place :: rest, stop, defaults, spreads⟩) := by
  simp [atPunct, bind_apply, peek_cons, pure_apply, isPunct_plain_ne h]

theorem eat_hit (p : Punct) :
    eat p c ⟨plainToken (.punct p) place :: rest, stop, defaults, spreads⟩ =
      .ok (true, ⟨rest, place.stop, defaults, spreads⟩) := by
  cases p <;> rfl

theorem eat_miss {p : Punct} (h : kind ≠ .punct p) :
    eat p c ⟨plainToken kind place :: rest, stop, defaults, spreads⟩ =
      .ok (false, ⟨plainToken kind place :: rest, stop, defaults, spreads⟩) := by
  simp [eat, bind_apply, atPunct_miss h, pure_apply]

theorem expect_hit (p : Punct) :
    expect p c ⟨plainToken (.punct p) place :: rest, stop, defaults, spreads⟩ =
      .ok ((), ⟨rest, place.stop, defaults, spreads⟩) := by
  simp [expect, bind_apply, eat_hit, pure_apply]

end Tokens

/-! ## Loops -/

/-- The values that a parser yields in turn, up to where it yields none. -/
inductive Steps (step : Parser (Option α)) (c : Context) : Cursor → List α → Cursor → Prop
  | done {cur after : Cursor} (h : step c cur = .ok (none, after)) : Steps step c cur [] after
  | more {cur mid after : Cursor} {a : α} {as : List α} (h : step c cur = .ok (some a, mid))
      (hmore : Steps step c mid as after) : Steps step c cur (a :: as) after

theorem collect_of_steps {step : Parser (Option α)} {as : List α}
    (h : Steps step c cur as after) {limit : Nat} (hlimit : as.length < limit)
    (acc : List α) : collect step limit acc c cur = .ok (acc.reverse ++ as, after) := by
  induction h generalizing limit acc with
  | done h =>
      obtain ⟨n, rfl⟩ := Nat.exists_eq_add_of_lt hlimit
      simp [collect, bind_apply, h, pure_apply]
  | @more cur mid after a as h hmore ih =>
      obtain ⟨n, rfl⟩ : ∃ n, limit = n + 1 := ⟨limit - 1, by omega⟩
      have hrest : as.length < n := Nat.lt_of_succ_lt_succ hlimit
      have hstep : collect step (n + 1) acc c cur = collect step n (a :: acc) c mid := by
        simp [collect, bind_apply, h]
      rw [hstep, ih hrest]
      simp

/-- A loop yields the values of its rounds. -/
theorem many_of_steps {step : Parser (Option α)} {as : List α} (h : Steps step c cur as after)
    (hlimit : as.length < c.limit) : many step c cur = .ok (as, after) :=
  collect_of_steps h hlimit []

theorem refine_none {step : α → Parser (Option α)} {a : α} {limit : Nat}
    (h : step a c cur = .ok (none, after)) : refine step (limit + 1) a c cur = .ok (a, after) := by
  simp [refine, bind_apply, h, pure_apply]

theorem refine_some {step : α → Parser (Option α)} {a b r : α} {limit : Nat}
    (h : step a c cur = .ok (some b, mid)) (hmore : refine step limit b c mid = .ok (r, after)) :
    refine step (limit + 1) a c cur = .ok (r, after) := by
  simp [refine, bind_apply, h, hmore]

theorem iterate_of_refine {step : α → Parser (Option α)} {a r : α}
    (h : refine step c.limit a c cur = .ok (r, after)) : iterate step a c cur = .ok (r, after) := by
  simp [iterate, bind_apply, context, h]

theorem iterate_none {step : α → Parser (Option α)} {a : α}
    (h : step a c cur = .ok (none, after)) (hlimit : 0 < c.limit) :
    iterate step a c cur = .ok (a, after) := by
  refine iterate_of_refine ?_
  obtain ⟨n, hn⟩ := Nat.exists_eq_add_of_lt hlimit
  rw [hn]
  exact refine_none h

theorem iterate_some {step : α → Parser (Option α)} {a b : α}
    (h : step a c cur = .ok (some b, mid)) (hnext : step b c mid = .ok (none, after))
    (hlimit : 1 < c.limit) : iterate step a c cur = .ok (b, after) := by
  refine iterate_of_refine ?_
  obtain ⟨n, hn⟩ : ∃ n, c.limit = n + 1 + 1 := ⟨c.limit - 2, by omega⟩
  rw [hn]
  exact refine_some h (refine_none hnext)

/-! ## Lists with commas -/

inductive Items (close : Punct) (item : Parser α) (c : Context) : Cursor → List α → Cursor → Prop
  | last {cur : Cursor} {a : α} {place : Place} {rest : List Token} {stop : Nat}
      {defaults spreads : List Nat} (hstart : atPunct close c cur = .ok (false, cur))
      (h : item c cur =
        .ok (a, ⟨plainToken (.punct close) place :: rest, stop, defaults, spreads⟩)) :
      Items close item c cur [a]
        ⟨plainToken (.punct close) place :: rest, stop, defaults, spreads⟩
  | more {cur after : Cursor} {a : α} {as : List α} {place : Place} {rest : List Token}
      {stop : Nat} {defaults spreads : List Nat} (hstart : atPunct close c cur = .ok (false, cur))
      (h : item c cur =
        .ok (a, ⟨plainToken (.punct .comma) place :: rest, stop, defaults, spreads⟩))
      (hmore : Items close item c ⟨rest, place.stop, defaults, spreads⟩ as after) :
      Items close item c cur (a :: as) after

/-- One item of a list, with whether a comma follows it; none at the closing punctuator. -/
def listStep (close : Punct) (item : Parser α) : Parser (Option (α × Bool)) := do
  if ← atPunct close then pure none
  else
    let a ← item
    if ← eat .comma then pure (some (a, true))
    else if ← atPunct close then pure (some (a, false))
    else fail

theorem commaList_eq (close : Punct) (item : Parser α) :
    commaList close item = (do
      let items ← many (listStep close item)
      pure (items.map Prod.fst, (items.getLast?.map Prod.snd).getD false)) := rfl

theorem steps_of_items {close : Punct} (hclose : close ≠ .comma) {item : Parser α} {as : List α}
    (h : Items close item c cur as after) :
    ∃ pairs : List (α × Bool), Steps (listStep close item) c cur pairs after ∧
      pairs.map Prod.fst = as ∧ pairs.getLast?.map Prod.snd = some false := by
  induction h with
  | @last cur a place rest stop defaults spreads hstart h =>
      have hfirst : listStep close item c cur =
          .ok (some (a, false),
            ⟨plainToken (.punct close) place :: rest, stop, defaults, spreads⟩) := by
        have hcomma : TokenKind.punct close ≠ .punct .comma := by simpa using hclose
        simp [listStep, bind_apply, hstart, h, eat_miss hcomma, atPunct_hit, pure_apply]
      have hend : listStep close item c
            ⟨plainToken (.punct close) place :: rest, stop, defaults, spreads⟩ =
          .ok (none, ⟨plainToken (.punct close) place :: rest, stop, defaults, spreads⟩) := by
        simp [listStep, bind_apply, atPunct_hit, pure_apply]
      exact ⟨[(a, false)], .more hfirst (.done hend), rfl, rfl⟩
  | @more cur after a as place rest stop defaults spreads hstart h hmore ih =>
      obtain ⟨pairs, hsteps, hfst, hlast⟩ := ih
      have hfirst : listStep close item c cur =
          .ok (some (a, true), ⟨rest, place.stop, defaults, spreads⟩) := by
        simp [listStep, bind_apply, hstart, h, eat_hit, pure_apply]
      refine ⟨(a, true) :: pairs, .more hfirst hsteps, by simp [hfst], ?_⟩
      cases pairs with
      | nil => cases hlast
      | cons q qs => simpa using hlast

/-- A list yields its items, and that no comma follows the last one. -/
theorem commaList_of_items {close : Punct} (hclose : close ≠ .comma) {item : Parser α}
    {as : List α} (h : Items close item c cur as after) (hlimit : as.length < c.limit) :
    commaList close item c cur = .ok ((as, false), after) := by
  obtain ⟨pairs, hsteps, hfst, hlast⟩ := steps_of_items hclose h
  have hlength : pairs.length < c.limit := by rwa [← hfst, List.length_map] at hlimit
  have hmany := many_of_steps hsteps hlength
  simp [commaList_eq, bind_apply, hmany, pure_apply, hfst, hlast]

/-! ## Whole texts -/

section Texts

variable {self : Productions} {n stop : Nat} {rest : List Token} {defaults spreads : List Nat}

def topStep (self : Productions) : Parser (Option Stmt) := do
  if (← peek).kind == .stop then pure none
  else pure (some (← self (.statement .listed)))

theorem topStatements_eq (self : Productions) : topStatements self = many (topStep self) := rfl

theorem topStep_of_statement {s : Stmt} {after : Cursor} {t : Token} (ht : t.kind ≠ .stop)
    (h : statement (productions n) .listed c ⟨t :: rest, stop, defaults, spreads⟩ =
      .ok (s, after)) :
    topStep (productions (n + 1)) c ⟨t :: rest, stop, defaults, spreads⟩ =
      .ok (some s, after) := by
  have hself : productions (n + 1) (.statement .listed) = statement (productions n) .listed := rfl
  simp [topStep, bind_apply, peek_cons, ht, hself, h, pure_apply]

theorem topStep_stop (t : Token) (ht : t.kind = .stop) :
    topStep self c ⟨t :: rest, stop, defaults, spreads⟩ =
      .ok (none, ⟨t :: rest, stop, defaults, spreads⟩) := by
  simp [topStep, bind_apply, peek_cons, ht, pure_apply]

/-- A text parses if its statements are read up to the end. -/
theorem parse_of_steps {source : Text} {statements : List Stmt} {t : Token} {rest : List Token}
    {stop : Nat} {spreads : List Nat}
    (h : Steps (topStep (productions (fuelFor source))) (topContext source)
      ⟨tokens source, 0, [], []⟩ statements ⟨t :: rest, stop, [], spreads⟩)
    (hlimit : statements.length ≤ source.length) :
    Program.parse source =
      .ok
        { directives := (splitDirectives source statements).1
          body := (splitDirectives source statements).2
          closing := t.comments
          hashbang := hashbang? source
          length := source.length } := by
  have hmany := many_of_steps h (Nat.lt_succ_of_le hlimit)
  have hsource : (topContext source).source = source := rfl
  simp [Program.parse, Parser.run, Parser.program, topStatements_eq, bind_apply, hmany, peek_cons,
    checkDefaults, Parser.context, hsource, pure_apply]

/-- A text is an expression, if it is read as an assignment up to its end. -/
theorem parse_of_assignment {source : Text} {e : Expr} {n : Nat} {last : Place}
    (hfuel : fuelFor source = n + 2)
    (h : assignment (productions n) true (topContext source) ⟨tokens source, 0, [], []⟩ =
      .ok (e, ⟨[plainToken .stop last], stop, [], spreads⟩)) : Expr.parse source = .ok e := by
  have hself : productions (n + 1) (.assignment true) = assignment (productions n) true := rfl
  have hexpression : productions (n + 2) .expression = expression (productions (n + 1)) := rfl
  have hcomma : TokenKind.stop ≠ .punct .comma := by decide
  obtain ⟨m, hm⟩ := mark_ok (topContext source) ⟨tokens source, 0, [], []⟩
  simp [Expr.parse, run, hfuel, hexpression, expression, bind_apply, hm, hself, h,
    atPunct_miss hcomma, checkDefaults, peek_cons, pure_apply]

end Texts

end Parser

end Syntax

end NgFile
