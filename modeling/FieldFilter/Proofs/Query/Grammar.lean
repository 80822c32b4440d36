import FieldFilter.Decimal.Reader
import FieldFilter.Query
import FieldFilter.Token

/-!
# The grammar of queries

An `OR` chain joins `AND` chains, an `AND` chain joins terms, and a term is a condition on a field,
a negated term or a group. A `Phrase` is a derivation of this grammar: it fixes the tokens that it
derives, the query that they spell, and how deep each of them stands inside groups and negations.
Chains grow at their right end, so the query of a chain is folded to the left.

The grammar knows nothing of limits or of places in a token list.
-/

namespace FieldFilter

/-- The value that a single token spells; a number must be an exact decimal. -/
def Token.value? (t : Token) : Option Value :=
  match t.kind with
  | .identifier => some (.identifier t.text)
  | .boolean => some (.boolean (t.text == "true"))
  | .number => (Decimal.readExact? t.text).map Value.number
  | _ => none

/-- The tokens that spell a condition behind the colon. -/
inductive Condition.SpelledBy : Condition → List Token → Prop
  | quoted {t : Token} (ht : t.kind = .quoted) : SpelledBy (.quoted t.text) [t]
  | compares {op : Comparison} {sign t : Token} {v : Value} (hsign : sign.kind = .comparison op)
      (ht : t.value? = some v) : SpelledBy (.compares op v) [sign, t]
  | equals {t : Token} {v : Value} (ht : t.value? = some v) : SpelledBy (.equals v) [t]
  | within {t dots u : Token} {lower upper : Value} (ht : t.value? = some lower)
      (hdots : dots.kind = .dots) (hu : u.value? = some upper) :
      SpelledBy (.within ⟨lower, upper⟩) [t, dots, u]

/-- The nonterminals of the grammar. -/
inductive Level where
  /-- Operands joined by one connective. -/
  | chain (c : Connective)
  | term
  deriving DecidableEq

namespace Level

/-- The loosest level, that of a whole query or of what stands in a group. -/
abbrev whole : Level := chain .or

/-- How tightly a phrase of this level holds together. -/
def precedence : Level → Nat
  | chain c => c.precedence
  | term => 3

/-- No level is looser than that of a whole query. -/
theorem whole_le (l : Level) : whole.precedence ≤ l.precedence := by
  rcases l with (_ | _) | _ <;> decide

end Level

/-- The level of the operands of a connective. -/
def Connective.operandLevel : Connective → Level
  | or => .chain .and
  | and => .term

/-- The right side of a connective is one level tighter. -/
@[simp] theorem Connective.precedence_operandLevel (c : Connective) :
    c.operandLevel.precedence = c.precedence + 1 := by
  cases c <;> rfl

/-- Nothing binds tighter than `AND` but a term. -/
theorem Connective.precedence_le (c : Connective) : c.precedence ≤ 2 := by
  cases c <;> decide

namespace Level

/-- Whether a token of some kind stops the reading of a phrase of some level. -/
def Stops (l : Level) (k : Token.Kind) : Prop :=
  k ≠ .dots ∧ ∀ c, k = .connective c → c.precedence ≤ l.precedence

/-- What stops a chain stops its operands. -/
theorem Stops.operand {c : Connective} {k : Token.Kind} (h : Stops (.chain c) k) :
    Stops c.operandLevel k :=
  ⟨h.1, fun c' hc' => by
    rw [c.precedence_operandLevel]
    exact Nat.le_succ_of_le (h.2 c' hc')⟩

/-- A connective stops the left operand that it joins. -/
theorem stops_connective (c : Connective) : Stops (.chain c) (.connective c) :=
  ⟨by simp, fun c' hc' => by
    obtain rfl : c = c' := by simpa using hc'
    exact Nat.le_refl _⟩

end Level

/-- A derivation of the grammar. -/
inductive Phrase : Level → Type
  /-- A condition on a field. -/
  | condition (name colon : Token) (body : List Token) (c : Condition)
      (hname : name.kind = .identifier) (hcolon : colon.kind = .colon)
      (hbody : c.SpelledBy body) : Phrase .term
  /-- A negated term. -/
  | negation (sign : Token) (operand : Phrase .term) (hsign : sign.kind = .not) : Phrase .term
  /-- A group, which has no node of its own in the query. -/
  | group (opening : Token) (inner : Phrase .whole) (closing : Token)
      (hopening : opening.kind = .leftParen) (hclosing : closing.kind = .rightParen) : Phrase .term
  /-- A chain of one operand. -/
  | single (c : Connective) (operand : Phrase c.operandLevel) : Phrase (.chain c)
  /-- A chain with one more operand at its right end. -/
  | joined (c : Connective) (left : Phrase (.chain c)) (sign : Token)
      (right : Phrase c.operandLevel) (hsign : sign.kind = .connective c) : Phrase (.chain c)

namespace Phrase

/-- The tokens that a phrase derives. -/
def tokens {l : Level} : Phrase l → List Token
  | condition name colon body _ _ _ _ => name :: colon :: body
  | negation sign operand _ => sign :: operand.tokens
  | group opening inner closing _ _ => opening :: (inner.tokens ++ [closing])
  | single _ operand => operand.tokens
  | joined _ left sign right _ => left.tokens ++ sign :: right.tokens

/-- The query that a phrase spells. -/
def query {l : Level} : Phrase l → Query
  | condition name _ _ c _ _ _ => .leaf name.text c
  | negation _ operand _ => .not operand.query
  | group _ inner _ _ _ => inner.query
  | single _ operand => operand.query
  | joined c left _ right _ => .join c left.query right.query

/-- For each token of a phrase, the number of groups and negations of the phrase around it. -/
def depths {l : Level} : Phrase l → List Nat
  | condition _ _ body _ _ _ _ => 0 :: 0 :: body.map fun _ => 0
  | negation _ operand _ => 0 :: operand.depths.map (· + 1)
  | group _ inner _ _ _ => 0 :: (inner.depths.map (· + 1) ++ [0])
  | single _ operand => operand.depths
  | joined _ left _ right _ => left.depths ++ 0 :: right.depths

/-- For each condition of a phrase, the number of groups and negations around it. -/
def leafDepths {l : Level} : Phrase l → List Nat
  | condition .. => [0]
  | negation _ operand _ => operand.leafDepths.map (· + 1)
  | group _ inner _ _ _ => inner.leafDepths.map (· + 1)
  | single _ operand => operand.leafDepths
  | joined _ left _ right _ => left.leafDepths ++ right.leafDepths

/-- The largest number of groups and negations around one token. -/
def nesting {l : Level} : Phrase l → Nat
  | condition .. => 0
  | negation _ operand _ => operand.nesting + 1
  | group _ inner _ _ _ => inner.nesting + 1
  | single _ operand => operand.nesting
  | joined _ left _ right _ => max left.nesting right.nesting

variable {l : Level}

/-- There are tokens in every phrase. -/
theorem depths_ne_nil (p : Phrase l) : p.depths ≠ [] := by
  induction p with
  | condition | negation | group => simp [depths]
  | single _ _ ih => exact ih
  | joined => simp [depths]

/-- There is a condition in every phrase. -/
theorem leafDepths_ne_nil (p : Phrase l) : p.leafDepths ≠ [] := by
  induction p with
  | condition => simp [leafDepths]
  | negation _ _ _ ih => simpa [leafDepths] using ih
  | group _ _ _ _ _ ih => simpa [leafDepths] using ih
  | single _ _ ih => exact ih
  | joined _ _ _ _ _ ihl _ => simp [leafDepths, ihl]

/-- Raising numbers by one raises their least bound by one, if there are any numbers. -/
private theorem forall_map_succ_le_iff {ns : List Nat} {m : Nat} (hne : ns ≠ [])
    (h : ∀ k, (∀ n ∈ ns, n ≤ k) ↔ m ≤ k) (k : Nat) :
    (∀ n ∈ ns.map (· + 1), n ≤ k) ↔ m + 1 ≤ k := by
  cases k with
  | zero =>
    obtain ⟨n, hn⟩ := List.exists_mem_of_ne_nil ns hne
    constructor
    · intro hk
      have := hk (n + 1) (List.mem_map_of_mem hn)
      omega
    · intro hk
      omega
  | succ k => simpa using h k

/-- The nesting is the least bound of the depths of all tokens. -/
theorem forall_depths_le_iff (p : Phrase l) (k : Nat) :
    (∀ n ∈ p.depths, n ≤ k) ↔ p.nesting ≤ k := by
  induction p generalizing k with
  | condition => simp [depths, nesting]
  | negation _ operand _ ih =>
    simpa [depths, nesting] using forall_map_succ_le_iff operand.depths_ne_nil ih k
  | group _ inner _ _ _ ih =>
    have h := forall_map_succ_le_iff inner.depths_ne_nil ih k
    simpa [depths, nesting, or_imp, forall_and] using h
  | single _ _ ih => exact ih k
  | joined _ left _ right _ ihl ihr =>
    simp only [depths, nesting, List.mem_append, List.mem_cons, or_imp, forall_and, ihl, ihr,
      Nat.max_le, forall_eq, Nat.zero_le, true_and]

/-- The nesting is the least bound of the depths of the conditions alone, because every group and
every negation has a condition in it. -/
theorem forall_leafDepths_le_iff (p : Phrase l) (k : Nat) :
    (∀ n ∈ p.leafDepths, n ≤ k) ↔ p.nesting ≤ k := by
  induction p generalizing k with
  | condition => simp [leafDepths, nesting]
  | negation _ operand _ ih => exact forall_map_succ_le_iff operand.leafDepths_ne_nil ih k
  | group _ inner _ _ _ ih => exact forall_map_succ_le_iff inner.leafDepths_ne_nil ih k
  | single _ _ ih => exact ih k
  | joined _ left _ right _ ihl ihr =>
    simp only [leafDepths, nesting, List.mem_append, or_imp, forall_and, ihl, ihr, Nat.max_le]

end Phrase

/-! ## Tokens of a phrase -/

namespace Token

/-- Whether the grammar has a use for tokens of this kind. -/
def Kind.isProper : Kind → Bool
  | endOfInput | unknown => false
  | _ => true

/-- A token that spells a value is proper. -/
theorem isProper_of_value? {t : Token} {v : Value} (h : t.value? = some v) :
    t.kind.isProper = true := by
  unfold value? at h
  split at h <;> simp_all [Kind.isProper]

/-- A proper token is no end of input. -/
theorem Kind.ne_endOfInput_of_isProper {k : Kind} (h : k.isProper = true) : k ≠ endOfInput := by
  rintro rfl
  cases h

/-- A proper token is not unknown. -/
theorem Kind.ne_unknown_of_isProper {k : Kind} (h : k.isProper = true) : k ≠ unknown := by
  rintro rfl
  cases h

end Token

/-- A condition is spelled in proper tokens. -/
theorem Condition.SpelledBy.isProper {c : Condition} {body : List Token} (h : c.SpelledBy body) :
    ∀ t ∈ body, t.kind.isProper = true := by
  cases h with
  | quoted ht => simp [ht, Token.Kind.isProper]
  | @compares op sign t v hsign ht =>
    have hs : sign.kind.isProper = true := by rw [hsign]; rfl
    simp [hs, Token.isProper_of_value? ht]
  | equals ht => simp [Token.isProper_of_value? ht]
  | @within t dots u lower upper ht hdots hu =>
    have hd : dots.kind.isProper = true := by rw [hdots]; rfl
    simp [hd, Token.isProper_of_value? ht, Token.isProper_of_value? hu]

/-- A condition is spelled in one token at least. -/
theorem Condition.SpelledBy.length_pos {c : Condition} {body : List Token}
    (h : c.SpelledBy body) : 0 < body.length := by
  cases h with
  | quoted | compares | equals | within => exact Nat.succ_pos _

namespace Phrase

variable {l : Level}

/-- A phrase has proper tokens only. -/
theorem isProper (p : Phrase l) : ∀ t ∈ p.tokens, t.kind.isProper = true := by
  induction p with
  | condition name colon body c hname hcolon hbody =>
    simpa [tokens, hname, hcolon, Token.Kind.isProper] using hbody.isProper
  | negation sign operand hsign ih => simpa [tokens, hsign, Token.Kind.isProper] using ih
  | group opening inner closing hopening hclosing ih =>
    simpa [tokens, hopening, hclosing, or_imp, forall_and, Token.Kind.isProper] using ih
  | single _ _ ih => exact ih
  | joined c left sign right hsign ihl ihr =>
    simpa [tokens, hsign, or_imp, forall_and, Token.Kind.isProper] using And.intro ihl ihr

/-- A phrase has a condition in it, which takes three tokens. -/
theorem three_le_length_tokens (p : Phrase l) : 3 ≤ p.tokens.length := by
  induction p with
  | condition name colon body c hname hcolon hbody =>
    have hpos := hbody.length_pos
    simp only [tokens, List.length_cons]
    omega
  | negation _ _ _ ih | group _ _ _ _ _ ih =>
    simp only [tokens, List.length_cons, List.length_append]
    omega
  | single _ _ ih => exact ih
  | joined _ _ _ _ _ ihl _ =>
    simp only [tokens, List.length_append]
    omega

/-! ## Looser levels -/

/-- A phrase seen at a looser level, where it is a chain of one operand. -/
def loosen : {l : Level} → (l' : Level) → l'.precedence ≤ l.precedence → Phrase l → Phrase l'
  | .term, .term, _, p => p
  | .term, .chain .and, _, p => single .and p
  | .term, .chain .or, _, p => single .or (single .and p)
  | .chain .and, .chain .and, _, p => p
  | .chain .and, .chain .or, _, p => single .or p
  | .chain .or, .chain .or, _, p => p
  | .chain .and, .term, h, _ => absurd h (by decide)
  | .chain .or, .term, h, _ => absurd h (by decide)
  | .chain .or, .chain .and, h, _ => absurd h (by decide)

/-- What does not count chains of one operand is the same at every level. -/
theorem apply_loosen {α : Type} (f : {l : Level} → Phrase l → α)
    (hf : ∀ (c : Connective) (p : Phrase c.operandLevel), f (single c p) = f p)
    {l' : Level} (h : l'.precedence ≤ l.precedence) (p : Phrase l) :
    f (p.loosen l' h) = f p := by
  unfold loosen
  split
  · rfl
  · exact hf .and _
  · exact (hf .or _).trans (hf .and _)
  · rfl
  · exact hf .or _
  · rfl
  all_goals contradiction

/-- A phrase is spelled in the same tokens at a looser level. -/
@[simp] theorem tokens_loosen {l' : Level} (h : l'.precedence ≤ l.precedence) (p : Phrase l) :
    (p.loosen l' h).tokens = p.tokens :=
  apply_loosen tokens (fun _ _ => rfl) h p

/-- A phrase stands for the same query at a looser level. -/
@[simp] theorem query_loosen {l' : Level} (h : l'.precedence ≤ l.precedence) (p : Phrase l) :
    (p.loosen l' h).query = p.query :=
  apply_loosen query (fun _ _ => rfl) h p

section Join

variable {l' : Level} (c : Connective) (left : Phrase l) (sign : Token) (right : Phrase l')
  (hsign : sign.kind = .connective c) (hleft : (Level.chain c).precedence ≤ l.precedence)
  (hright : c.operandLevel.precedence ≤ l'.precedence)

/-- Two phrases joined by a connective that is no tighter than the left one and looser than the
right one. -/
def join : Phrase (.chain c) := .joined c (left.loosen _ hleft) sign (right.loosen _ hright) hsign

@[simp] theorem tokens_join : (join c left sign right hsign hleft hright).tokens =
    left.tokens ++ sign :: right.tokens := by
  simp only [join, tokens, tokens_loosen]

@[simp] theorem query_join : (join c left sign right hsign hleft hright).query =
    .join c left.query right.query := by
  simp only [join, query, query_loosen]

end Join

end Phrase

end FieldFilter
