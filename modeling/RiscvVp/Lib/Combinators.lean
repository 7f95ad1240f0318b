/-
# RiscvVp.Lib.Combinators -- parser combinators, as far as they can be relied on

A parser takes a front part of its input, or fails and says where.  `Combinators` is the interface
of a library that cannot be looked into, and `Lawful` is what its documentation says: the laws
speak of alternatives only where a failed one has taken nothing, so that it does not matter whether
the library goes back.  `direct` is a library that has the laws.
-/
import Mathlib.Data.List.Basic

namespace RiscvVp.Lib

set_option autoImplicit false

/-- What a parser came to, and the input that is left. -/
inductive Outcome (γ α : Type) where
  | ok (value : α) (rest : List γ)
  | failed (rest : List γ)
deriving DecidableEq

/-- The parsers over the characters `γ`; texts are lists.  A parser runs with or without going back
behind a failed alternative. -/
structure Combinators (γ : Type) where
  Parser : Type → Type
  run : {α : Type} → Bool → Parser α → List γ → Outcome γ α
  char : γ → Parser (List γ)
  oneof : List γ → Parser (List γ)
  noneof : List γ → Parser (List γ)
  any : Parser (List γ)
  many : Parser (List γ) → Parser (List γ)
  and2 : {α β δ : Type} → (α → β → δ) → Parser α → Parser β → Parser δ
  and3 : {α β δ ε : Type} → (α → β → δ → ε) → Parser α → Parser β → Parser δ → Parser ε
  or3 : {α : Type} → Parser α → Parser α → Parser α → Parser α
  apply : {α β : Type} → (α → β) → Parser α → Parser β
  predictive : {α : Type} → Parser α → Parser α
  strfold : List γ → List γ → List γ

/-- One character. -/
def one {γ : Type} (p : γ → Bool) : List γ → Outcome γ (List γ)
  | [] => .failed []
  | x :: rest => if p x then .ok [x] rest else .failed (x :: rest)

/-! ## Parsers as functions -/

section Direct

variable {γ : Type}

abbrev Direct (γ α : Type) := Bool → List γ → Outcome γ α

/-- As often as it goes; a turn that takes nothing is the last one. -/
def directMany (p : List γ → Outcome γ (List γ)) (input : List γ) : Outcome γ (List γ) :=
  match p input with
  | .failed rest => .ok [] rest
  | .ok x rest =>
      if rest.length < input.length then
        match directMany p rest with
        | .ok xs rest => .ok (x ++ xs) rest
        | .failed rest => .failed rest
      else .ok x rest
termination_by input.length

/-- An alternative, from the start or from where the one before it stopped. -/
def directOr {α : Type} (p q : Direct γ α) : Direct γ α := fun back input =>
  match p back input with
  | .ok x rest => .ok x rest
  | .failed rest => q back (if back then input else rest)

def directAnd {α β δ : Type} (f : α → β → δ) (p : Direct γ α) (q : Direct γ β) : Direct γ δ := fun back input =>
  match p back input with
  | .failed rest => .failed rest
  | .ok x rest =>
      match q back rest with
      | .failed rest => .failed rest
      | .ok y rest => .ok (f x y) rest

theorem directAnd_ok {α β δ : Type} {f : α → β → δ} {p : Direct γ α} {q : Direct γ β} {back : Bool} {x : α} {y : β}
    {input rest rest' : List γ} (first : p back input = .ok x rest) (second : q back rest = .ok y rest') :
    directAnd f p q back input = .ok (f x y) rest' := by
  unfold directAnd
  rw [first]
  dsimp only
  rw [second]

theorem directOr_failed {α : Type} {p q : Direct γ α} {back : Bool} {input : List γ}
    (failed : p back input = .failed input) : directOr p q back input = q back input := by
  unfold directOr
  rw [failed]
  dsimp only
  rw [ite_self]

end Direct

/-! ## The laws -/

namespace Combinators

variable {γ : Type} [DecidableEq γ]

structure Lawful (c : Combinators γ) : Prop where
  char (back : Bool) (x : γ) (input : List γ) : c.run back (c.char x) input = one (· = x) input
  oneof (back : Bool) (xs input : List γ) : c.run back (c.oneof xs) input = one (· ∈ xs) input
  noneof (back : Bool) (xs input : List γ) : c.run back (c.noneof xs) input = one (· ∉ xs) input
  any (back : Bool) (input : List γ) : c.run back c.any input = one (fun _ => true) input
  many_stop {back : Bool} {p : c.Parser (List γ)} {input : List γ} :
    c.run back p input = .failed input → c.run back (c.many p) input = .ok [] input
  many_next {back : Bool} {p : c.Parser (List γ)} {input x rest xs rest' : List γ} :
    c.run back p input = .ok x rest → rest.length < input.length →
      c.run back (c.many p) rest = .ok xs rest' → c.run back (c.many p) input = .ok (x ++ xs) rest'
  and2 {back : Bool} {α β δ : Type} (f : α → β → δ) {p : c.Parser α} {q : c.Parser β} {x : α} {y : β}
    {input rest rest' : List γ} : c.run back p input = .ok x rest → c.run back q rest = .ok y rest' →
      c.run back (c.and2 f p q) input = .ok (f x y) rest'
  and3 {back : Bool} {α β δ ε : Type} (f : α → β → δ → ε) {p : c.Parser α} {q : c.Parser β}
    {r : c.Parser δ} {x : α} {y : β} {z : δ} {input rest rest' rest'' : List γ} :
    c.run back p input = .ok x rest → c.run back q rest = .ok y rest' → c.run back r rest' = .ok z rest'' →
      c.run back (c.and3 f p q r) input = .ok (f x y z) rest''
  and3_failed {back : Bool} {α β δ ε : Type} (f : α → β → δ → ε) {p : c.Parser α} (q : c.Parser β)
    (r : c.Parser δ) {input : List γ} :
    c.run back p input = .failed input → c.run back (c.and3 f p q r) input = .failed input
  or3_first {back : Bool} {α : Type} {p : c.Parser α} (q r : c.Parser α) {x : α} {input rest : List γ} :
    c.run back p input = .ok x rest → c.run back (c.or3 p q r) input = .ok x rest
  or3_second {back : Bool} {α : Type} {p q : c.Parser α} (r : c.Parser α) {x : α} {input rest : List γ} :
    c.run back p input = .failed input → c.run back q input = .ok x rest →
      c.run back (c.or3 p q r) input = .ok x rest
  or3_failed {back : Bool} {α : Type} {p q r : c.Parser α} {input : List γ} :
    c.run back p input = .failed input → c.run back q input = .failed input →
      c.run back r input = .failed input → c.run back (c.or3 p q r) input = .failed input
  apply {back : Bool} {α β : Type} (f : α → β) {p : c.Parser α} {x : α} {input rest : List γ} :
    c.run back p input = .ok x rest → c.run back (c.apply f p) input = .ok (f x) rest
  apply_failed {back : Bool} {α β : Type} (f : α → β) {p : c.Parser α} {input rest : List γ} :
    c.run back p input = .failed rest → c.run back (c.apply f p) input = .failed rest
  predictive (back : Bool) {α : Type} (p : c.Parser α) (input : List γ) :
    c.run back (c.predictive p) input = c.run false p input
  strfold (x y : List γ) : c.strfold x y = x ++ y

namespace Lawful

variable {c : Combinators γ}

/-- A text whose characters are all admitted, up to one that is not. -/
theorem many_noneof (lawful : c.Lawful) (back : Bool) {xs text : List γ} {stop : γ} (rest : List γ)
    (admitted : ∀ x ∈ text, x ∉ xs) (stops : stop ∈ xs) :
    c.run back (c.many (c.noneof xs)) (text ++ stop :: rest) = .ok text (stop :: rest) := by
  induction text with
  | nil =>
    refine lawful.many_stop ?_
    rw [lawful.noneof]
    simp [one, stops]
  | cons x text ih =>
    obtain ⟨first, later⟩ := List.forall_mem_cons.mp admitted
    refine lawful.many_next (x := [x]) ?_ ?_ (ih later)
    · rw [lawful.noneof]
      simp [one, first]
    · simp

end Lawful

/-- A library that has the laws. -/
def direct (γ : Type) [DecidableEq γ] : Combinators γ where
  Parser := Direct γ
  run back p input := p back input
  char x _ := one (· = x)
  oneof xs _ := one (· ∈ xs)
  noneof xs _ := one (· ∉ xs)
  any _ := one fun _ => true
  many p back := directMany (p back)
  and2 := directAnd
  and3 f p q r := directAnd (fun x g => g x) p (directAnd (fun y z x => f x y z) q r)
  or3 p q r := directOr p (directOr q r)
  apply f p back input :=
    match p back input with
    | .ok x rest => .ok (f x) rest
    | .failed rest => .failed rest
  predictive p _ := p false
  strfold x y := x ++ y

theorem lawful_direct : (direct γ).Lawful where
  char _ _ _ := rfl
  oneof _ _ _ := rfl
  noneof _ _ _ := rfl
  any _ _ := rfl
  many_stop {back p input} stopped := by
    show directMany (p back) input = _
    unfold directMany
    rw [show p back input = _ from stopped]
  many_next {back p input x rest xs rest'} first shorter later := by
    show directMany (p back) input = _
    unfold directMany
    rw [show p back input = _ from first]
    dsimp only
    rw [if_pos shorter, show directMany (p back) rest = _ from later]
  and2 _ _ _ _ _ _ _ _ first second := directAnd_ok first second
  and3 _ _ _ _ _ _ _ _ _ _ _ first second third := directAnd_ok first (directAnd_ok second third)
  and3_failed {back α β δ ε} f p q r input failed := by
    show directAnd _ _ _ back input = _
    unfold directAnd
    rw [show p back input = _ from failed]
  or3_first {back α p} q r x input rest first := by
    show directOr p (directOr q r) back input = _
    unfold directOr
    rw [show p back input = _ from first]
  or3_second {back α p q} r x input rest failed second := by
    show directOr p (directOr q r) back input = _
    rw [directOr_failed failed]
    unfold directOr
    rw [show q back input = _ from second]
  or3_failed first second third := (directOr_failed first).trans ((directOr_failed second).trans third)
  apply {back α β} f p x input rest ran := by
    show (match p back input with | .ok x rest => Outcome.ok (f x) rest | .failed rest => .failed rest) = _
    rw [show p back input = _ from ran]
  apply_failed {back α β} f p input rest failed := by
    show (match p back input with | .ok x rest => Outcome.ok (f x) rest | .failed rest => .failed rest) = _
    rw [show p back input = _ from failed]
  predictive _ _ _ _ := rfl
  strfold _ _ := rfl

end Combinators

/-! ## More parsers -/

/-- A library that has a parser for a whole word, for a text that is not empty, for something that may be missing,
and for two alternatives as well. -/
structure MoreCombinators (γ : Type) extends Combinators γ where
  string : List γ → Parser (List γ)
  many1 : Parser (List γ) → Parser (List γ)
  maybe : {α : Type} → Parser α → Parser (Option α)
  or2 : {α : Type} → Parser α → Parser α → Parser α

namespace MoreCombinators

variable {γ : Type} [DecidableEq γ]

structure Lawful (c : MoreCombinators γ) : Prop extends c.toCombinators.Lawful where
  many1 {back : Bool} {p : c.Parser (List γ)} {input x rest xs rest' : List γ} :
    c.run back p input = .ok x rest → c.run back (c.many p) rest = .ok xs rest' →
      c.run back (c.many1 p) input = .ok (x ++ xs) rest'
  maybe_some {back : Bool} {α : Type} {p : c.Parser α} {x : α} {input rest : List γ} :
    c.run back p input = .ok x rest → c.run back (c.maybe p) input = .ok (some x) rest
  maybe_none {back : Bool} {α : Type} {p : c.Parser α} {input : List γ} :
    c.run back p input = .failed input → c.run back (c.maybe p) input = .ok none input
  or2_first {back : Bool} {α : Type} {p : c.Parser α} (q : c.Parser α) {x : α} {input rest : List γ} :
    c.run back p input = .ok x rest → c.run back (c.or2 p q) input = .ok x rest

/-- A text of admitted characters, up to one that is not or to the end. -/
theorem Lawful.many1_oneof {c : MoreCombinators γ} (lawful : c.Lawful) (back : Bool) {xs text rest : List γ}
    (some : text ≠ []) (admitted : ∀ x ∈ text, x ∈ xs) (stops : ∀ x ∈ rest.head?, x ∉ xs) :
    c.run back (c.many1 (c.oneof xs)) (text ++ rest) = .ok text rest := by
  have stop : c.run back (c.oneof xs) rest = .failed rest := by
    rw [lawful.oneof]
    cases rest with
    | nil => rfl
    | cons x rest =>
      have refused : x ∉ xs := stops x rfl
      simp [one, refused]
  have next {x : γ} (input : List γ) (admitted : x ∈ xs) : c.run back (c.oneof xs) (x :: input) = .ok [x] input := by
    rw [lawful.oneof]
    simp [one, admitted]
  have many : ∀ text : List γ, (∀ x ∈ text, x ∈ xs) →
      c.run back (c.many (c.oneof xs)) (text ++ rest) = .ok text rest := by
    intro text admitted
    induction text with
    | nil => exact lawful.many_stop stop
    | cons x text ih =>
      obtain ⟨first, later⟩ := List.forall_mem_cons.mp admitted
      exact lawful.many_next (next _ first) (Nat.lt_succ_self _) (ih later)
  cases text with
  | nil => exact absurd rfl some
  | cons x text =>
    obtain ⟨first, later⟩ := List.forall_mem_cons.mp admitted
    exact lawful.many1 (next _ first) (many text later)

/-- A library with these parsers that has the laws. -/
def direct (γ : Type) [DecidableEq γ] : MoreCombinators γ where
  toCombinators := Combinators.direct γ
  string xs _ input := if xs <+: input then .ok xs (input.drop xs.length) else .failed input
  many1 p := directAnd (fun x xs => x ++ xs) p fun back => directMany (p back)
  maybe p back input :=
    match p back input with
    | .ok x rest => .ok (some x) rest
    | .failed rest => .ok none (if back then input else rest)
  or2 := directOr

theorem lawful_direct : (direct γ).Lawful where
  toLawful := Combinators.lawful_direct
  many1 {back p input x rest xs rest'} first later := by
    show directAnd (fun x xs => x ++ xs) p (fun back => directMany (p back)) back input = _
    exact directAnd_ok (show p back input = _ from first) (show directMany (p back) rest = _ from later)
  maybe_some {back α p x input rest} ran := by
    show (match p back input with
      | .ok x rest => Outcome.ok (some x) rest
      | .failed rest => .ok none (if back then input else rest)) = _
    rw [show p back input = _ from ran]
  maybe_none {back α p input} failed := by
    show (match p back input with
      | .ok x rest => Outcome.ok (some x) rest
      | .failed rest => .ok none (if back then input else rest)) = _
    rw [show p back input = _ from failed]
    dsimp only
    rw [ite_self]
  or2_first {back α p} q x input rest first := by
    show directOr p q back input = _
    unfold directOr
    rw [show p back input = _ from first]

end MoreCombinators

end RiscvVp.Lib
