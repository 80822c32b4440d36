import FieldFilter.Proofs.Token.Locality

/-!
# Parentheses among the characters

Outside of quoted text every parenthesis is a token of its own, whatever stands beside it. How many
parentheses a text opens can therefore be counted among its characters, and the count changes in
the obvious way when a parenthesis is taken out, although its neighbours may then be read as one
token.
-/

namespace FieldFilter.Token

/-! ## Counting characters -/

/-- Whether quoted text is open behind some characters, given whether it is in front of them. -/
def quotedAfter : Bool → List Char → Bool
  | quoted, [] => quoted
  | quoted, c :: cs => quotedAfter (quoted ^^ c == '"') cs

/-- The number of opening parentheses among some characters, without those in quoted text. -/
def parensOpened : Bool → List Char → Nat
  | _, [] => 0
  | quoted, c :: cs =>
    (if c = '(' ∧ quoted = false then 1 else 0) + parensOpened (quoted ^^ c == '"') cs

/-- Behind an even number of quotes it is as it was in front of them. -/
theorem quotedAfter_eq_iff (quoted : Bool) (cs : List Char) :
    quotedAfter quoted cs = quoted ↔ Even (cs.count '"') := by
  induction cs generalizing quoted with
  | nil => simp [quotedAfter]
  | cons c cs ih =>
    by_cases hc : c = '"'
    · subst hc
      have hflip : quotedAfter quoted ('"' :: cs) = quotedAfter (!quoted) cs := by
        cases quoted <;> rfl
      rw [hflip, List.count_cons_self, Nat.even_add_one, ← ih (!quoted)]
      cases quotedAfter (!quoted) cs <;> cases quoted <;> decide
    · have hstay : quotedAfter quoted (c :: cs) = quotedAfter quoted cs := by
        rw [quotedAfter, beq_eq_false_iff_ne.2 hc, Bool.xor_false]
      rw [hstay, List.count_cons_of_ne hc, ih]

theorem parensOpened_append (quoted : Bool) (as bs : List Char) :
    parensOpened quoted (as ++ bs) =
      parensOpened quoted as + parensOpened (quotedAfter quoted as) bs := by
  induction as generalizing quoted with
  | nil => simp [parensOpened, quotedAfter]
  | cons c as ih =>
    rw [List.cons_append, parensOpened, parensOpened, quotedAfter, ih, Nat.add_assoc]

theorem parensOpened_of_not_mem {cs : List Char} (h : '(' ∉ cs) (quoted : Bool) :
    parensOpened quoted cs = 0 := by
  induction cs generalizing quoted with
  | nil => rfl
  | cons c cs ih =>
    rw [List.mem_cons, not_or] at h
    rw [parensOpened, ih h.2, if_neg fun hc => h.1 hc.1.symm]

/-- In quoted text no parenthesis counts. -/
theorem parensOpened_true_of_not_mem {cs : List Char} (h : '"' ∉ cs) :
    parensOpened true cs = 0 := by
  induction cs with
  | nil => rfl
  | cons c cs ih =>
    rw [List.mem_cons, not_or] at h
    have hc : (c == '"') = false := beq_eq_false_iff_ne.2 (Ne.symm h.1)
    rw [parensOpened, if_neg (by simp), hc]
    exact (Nat.zero_add _).trans (ih h.2)

/-! ## Counting tokens -/

/-- Among the texts of classes, only the parenthesis has one that counts. -/
theorem Class.Has.parensOpened_eq {cls : Class} {cs : List Char} (h : cls.Has cs) :
    parensOpened false cs = if cls.kind cs = .leftParen then 1 else 0 := by
  have hnone {cs : List Char} {kind : Kind} (hcs : '(' ∉ cs) (hkind : kind ≠ .leftParen) :
      parensOpened false cs = if kind = .leftParen then 1 else 0 := by
    rw [parensOpened_of_not_mem hcs, if_neg hkind]
  cases h with
  | colon | rightParen | dots => exact hnone (by decide) (by decide)
  | leftParen => rfl
  | comparison op => cases op <;> exact hnone (by decide) (by decide)
  | word hc hcs =>
    rw [← wordKind_eq]
    refine hnone (not_mem_of_isWordPart_eq_false rfl fun d hd => ?_) ?_
    · rcases List.mem_cons.1 hd with rfl | hd
      · exact .inl hc
      · exact hcs d hd
    · unfold wordKind
      split <;> nofun
  | whole _ hds =>
    exact hnone (not_mem_of_isWordPart_eq_false rfl fun d hd => .inr (hds d hd)) nofun
  | @fraction ds es _ hds _ hes =>
    have hwhole : '(' ∉ ds := not_mem_of_isWordPart_eq_false rfl fun d hd => .inr (hds d hd)
    have hrest : '(' ∉ es := not_mem_of_isWordPart_eq_false rfl fun d hd => .inr (hes d hd)
    exact hnone (by simp [hwhole, hrest]) nofun
  | @quoted inner hinner =>
    have hquoted : parensOpened false ('"' :: (inner ++ ['"'])) =
        parensOpened true inner + parensOpened (quotedAfter true inner) ['"'] :=
      (Nat.zero_add _).trans (parensOpened_append true inner ['"'])
    rw [List.cons_append, hquoted, parensOpened_true_of_not_mem hinner,
      parensOpened_of_not_mem (by decide)]
    rfl

/-- A token that is no open quote counts if it is an opening parenthesis. -/
theorem parensOpened_span_munch {c : Char} {cs : List Char} (hquote : c = '"' → '"' ∈ cs) :
    parensOpened false (munch c cs).span = if (munch c cs).kind = .leftParen then 1 else 0 := by
  rcases exists_has_or_unknown c cs with ⟨cls, hcls⟩ | ⟨hkind, hspan⟩
  · rw [(longestMatch_munch c cs).kind_eq cls hcls, hcls.parensOpened_eq]
  · have hc : c ≠ '"' := by
      rintro rfl
      rw [kind_munch_quote (hquote rfl)] at hkind
      cases hkind
    have hparen : '(' ∉ [c] := by
      rw [List.mem_singleton]
      rintro rfl
      cases hkind
    rw [hspan, if_neg hc, hkind, parensOpened_of_not_mem hparen]
    rfl

/-- As many tokens are opening parentheses as characters are, those in quoted text apart. -/
theorem countP_leftParen_lex (offset : Nat) (cs : List Char) :
    (lex offset cs).countP (·.kind = .leftParen) = parensOpened false cs := by
  induction cs using lex_induction generalizing offset with
  | nil =>
    rw [lex_nil]
    rfl
  | layout c cs hc ih =>
    have hquote : (c == '"') = false := by
      rw [beq_eq_false_iff_ne]
      rintro rfl
      cases hc
    have hparen : c ≠ '(' := by
      rintro rfl
      cases hc
    rw [lex_layout hc, ih, parensOpened, if_neg fun h => hparen h.1, hquote, Nat.zero_add]
    rfl
  | token c cs hc ih =>
    rw [lex_token hc, List.countP_cons, ih]
    by_cases hquote : c = '"' → '"' ∈ cs
    · have heven := (quotedAfter_eq_iff false _).2 (even_count_span_munch hquote)
      conv_rhs => rw [← munch_span_append_rest c cs]
      rw [parensOpened_append, heven, parensOpened_span_munch hquote, Nat.add_comm]
      simp
    · -- an open quote takes everything behind it
      obtain ⟨rfl, hopen⟩ := Classical.not_imp.1 hquote
      have hmunch : munch '"' cs = ⟨.unknown, '"' :: cs, []⟩ := munchQuoted_of_open hopen
      have hrest : parensOpened false ('"' :: cs) = parensOpened true cs := Nat.zero_add _
      rw [hmunch, hrest, parensOpened_true_of_not_mem hopen]
      rfl

/-! ## Taking out a pair -/

/-- Without an opening parenthesis and a closing one, a text opens one parenthesis less. -/
theorem parensOpened_remove_pair {before : List Char} (h : Even (before.count '"'))
    (inner after : List Char) :
    parensOpened false (before ++ '(' :: (inner ++ ')' :: after)) =
      parensOpened false (before ++ (inner ++ after)) + 1 := by
  have hclosing (quoted : Bool) :
      parensOpened quoted (')' :: after) = parensOpened quoted after := by
    cases quoted <;> exact Nat.zero_add _
  have hopening (cs : List Char) : parensOpened false ('(' :: cs) = 1 + parensOpened false cs := rfl
  rw [parensOpened_append, parensOpened_append, (quotedAfter_eq_iff false before).2 h, hopening,
    parensOpened_append, parensOpened_append, hclosing]
  omega

/-- Two ways of dividing a text at one place are one. -/
theorem append_inj_left_of_utf8Length {as bs cs ds : List Char} (h : as ++ cs = bs ++ ds)
    (hlength : utf8Length as = utf8Length bs) : as = bs := by
  have hnil {xs ys : List Char} (hle : utf8Length (xs ++ ys) = utf8Length xs) : ys = [] := by
    refine Classical.byContradiction fun hne => ?_
    have hpos := utf8Length_pos hne
    rw [utf8Length_append] at hle
    omega
  rcases List.append_eq_append_iff.1 h with ⟨more, rfl, -⟩ | ⟨more, rfl, -⟩
  · rw [hnil hlength.symm, List.append_nil]
  · rw [hnil hlength, List.append_nil]

/-- In a text whose tokens are all known, an even number of quotes stands in front of a token. -/
theorem even_count_of_known {offset : Nat} {before ahead : List Char} {t : Token}
    (ht : t ∈ lexBody offset (before ++ ahead)) (hoffset : t.offset = offset + utf8Length before)
    (hknown : ∀ u ∈ lexBody offset (before ++ ahead), u.kind ≠ .unknown) :
    Even (before.count '"') := by
  obtain ⟨before', ahead', htext, hoffset', hbody, -⟩ := exists_cut_of_mem_lexBody ht
  obtain rfl : before = before' := append_inj_left_of_utf8Length htext (by omega)
  rw [← Nat.not_odd_iff_even]
  intro hodd
  obtain ⟨body, front, inner, -, -, hopen⟩ := exists_lexBody_eq_of_odd_count hodd offset
  refine hknown ⟨.unknown, String.ofList ('"' :: inner), offset + utf8Length front⟩ ?_ rfl
  rw [hbody, hopen]
  simp

end FieldFilter.Token
