import DocPipeline.Proofs.Json.Reading

namespace DocPipeline.Json

-- Characters that lead from one region to another and are all left as they are.
inductive Passes : Region → List Char → Region → Prop
  | nil (region : Region) : Passes region [] region
  | cons {region next last : Region} {c : Char} {text : List Char}
    (h : region.step c = some (next, c)) (hrest : Passes next text last) :
    Passes region (c :: text) last

theorem Passes.append {first middle last : Region} {front text : List Char}
    (h : Passes first front middle) (hrest : Passes middle text last) :
    Passes first (front ++ text) last := by
  induction h with
  | nil region => exact hrest
  | cons hc _ ih => exact .cons hc (ih hrest)

theorem Passes.blankFrom {first last : Region} {front : List Char}
    (h : Passes first front last) (done rest : List Char) :
    blankFrom first done (front ++ rest) = Json.blankFrom last (front.reverse ++ done) rest := by
  induction h generalizing done with
  | nil region => rfl
  | cons hc _ ih => simp [Json.blankFrom, hc, ih]

-- From one place of a text to a later one no comment is met, and no string is left open.
def Clear (s rest : List Char) : Prop :=
  ∃ front, s = front ++ rest ∧ Passes .plain front .plain

namespace Clear

variable {s t rest : List Char} {c : Char}

theorem refl (s : List Char) : Clear s s := ⟨[], rfl, .nil _⟩

theorem trans (h : Clear s t) (hrest : Clear t rest) : Clear s rest := by
  obtain ⟨front, rfl, hfront⟩ := h
  obtain ⟨more, rfl, hmore⟩ := hrest
  exact ⟨front ++ more, (List.append_assoc ..).symm, hfront.append hmore⟩

-- A character that opens neither a string nor a comment.
theorem cons (hc : Region.plain.step c = some (.plain, c)) (h : Clear s rest) :
    Clear (c :: s) rest := by
  obtain ⟨front, rfl, hfront⟩ := h
  exact ⟨c :: front, rfl, .cons hc hfront⟩

theorem blankComments (h : Clear s []) : blankComments s = some s := by
  obtain ⟨front, rfl, hfront⟩ := h
  rw [Json.blankComments, hfront.blankFrom]
  simp [blankFrom, Region.final]

end Clear

section Characters

variable {c : Char}

theorem step_plain (hquote : c ≠ '"') (hslash : c ≠ '/') (hhash : c ≠ '#') :
    Region.plain.step c = some (.plain, c) := by
  rw [Region.step]
  exacts [hquote, hslash, hhash]

theorem step_quoted (hquote : c ≠ '"') (hbackslash : c ≠ '\\') :
    Region.quoted.step c = some (.quoted, c) := by
  rw [Region.step]
  exacts [hquote, hbackslash]

theorem step_digit (h : c.isDigit = true) : Region.plain.step c = some (.plain, c) :=
  step_plain (by rintro rfl; cases h) (by rintro rfl; cases h) (by rintro rfl; cases h)

theorem step_hexDigit {n : Nat} (h : hexDigit? c = some n) :
    Region.quoted.step c = some (.quoted, c) :=
  step_quoted (by rintro rfl; cases h) (by rintro rfl; cases h)

theorem passes_hex4 {a b c d : Char} {n : Nat} (h : hex4? a b c d = some n) :
    Passes .quoted [a, b, c, d] .quoted := by
  simp only [hex4?, Option.bind_eq_bind, Option.bind_eq_some_iff] at h
  obtain ⟨_, ha, _, hb, _, hc, _, hd, _⟩ := h
  exact .cons (step_hexDigit ha) (.cons (step_hexDigit hb) (.cons (step_hexDigit hc)
    (.cons (step_hexDigit hd) (.nil _))))

theorem passes_unicode {a b c d : Char} {n : Nat} (h : hex4? a b c d = some n) :
    Passes .quoted ['\\', 'u', a, b, c, d] .quoted :=
  .cons rfl (.cons rfl (passes_hex4 h))

end Characters

theorem clear_skipSpace (s : List Char) : Clear s (skipSpace s) := by
  fun_induction skipSpace s with
  | case1 c rest h ih =>
    apply Clear.cons _ ih
    rcases h with rfl | rfl | rfl | rfl <;> rfl
  | case2 c rest h => exact .refl _
  | case3 => exact .refl _

-- From inside of a string to behind its closing quote.
def Closes (s rest : List Char) : Prop :=
  ∃ front, s = front ++ rest ∧ Passes .quoted front .plain

theorem Closes.after {front s rest : List Char} (hfront : Passes .quoted front .quoted)
    (h : Closes s rest) : Closes (front ++ s) rest := by
  obtain ⟨more, rfl, hmore⟩ := h
  exact ⟨front ++ more, (List.append_assoc ..).symm, hfront.append hmore⟩

theorem Closes.clear {s rest : List Char} (h : Closes s rest) : Clear ('"' :: s) rest := by
  obtain ⟨front, rfl, hfront⟩ := h
  exact ⟨'"' :: front, rfl, .cons rfl hfront⟩

theorem closes_stringTail {done s rest : List Char} {text : String}
    (h : stringTail done s = some (text, rest)) : Closes s rest := by
  fun_induction stringTail done s
  case case2 =>
    cases h
    exact ⟨['"'], rfl, .cons rfl (.nil _)⟩
  case case5 hhigh _ _ _ _ _ _ _ hlow _ ih =>
    exact .after (passes_unicode hhigh) (.after (passes_unicode hlow) (ih h))
  case case9 hcode _ _ ih => exact .after (passes_unicode hcode) (ih h)
  case case11 c _ _ _ _ ih =>
    exact @Closes.after ['\\', c] _ _ (.cons rfl (.cons rfl (.nil _))) (ih h)
  case case13 c _ hquote _ _ hc ih =>
    have hstep := step_quoted hquote fun hbackslash => hc (.inr hbackslash)
    exact @Closes.after [c] _ _ (.cons hstep (.nil _)) (ih h)
  all_goals cases h

section Numbers

variable {s rest : List Char}

theorem clear_digits (s : List Char) : Clear s (digitsAndRest s).2 := by
  induction s with
  | nil => exact .refl _
  | cons c s ih =>
    unfold digitsAndRest at ih ⊢
    by_cases hc : c.isDigit = true
    · simp only [List.dropWhile_cons_of_pos hc]
      exact .cons (step_digit hc) ih
    · simp only [List.dropWhile_cons_of_neg hc]
      exact .refl _

theorem clear_readWhole? {digits : List Char} (h : readWhole? s = some (digits, rest)) :
    Clear s rest := by
  unfold readWhole? at h
  split at h
  · split at h
    · split at h
      · cases h
      · cases h
        exact .cons rfl (.refl _)
    · cases h
      exact .cons rfl (.refl _)
  · dsimp only [digitsAndRest] at h
    split at h
    · cases h
    · cases h
      exact clear_digits s

theorem clear_readFraction? {digits : List Char} (h : readFraction? s = some (digits, rest)) :
    Clear s rest := by
  unfold readFraction? at h
  split at h
  · dsimp only [digitsAndRest] at h
    split at h
    · cases h
    · cases h
      exact .cons rfl (clear_digits _)
  · cases h
    exact .refl _

theorem clear_readExponentDigits? {negative : Bool} {exponent : Option (Bool × List Char)}
    (h : readExponentDigits? negative s = some (exponent, rest)) : Clear s rest := by
  unfold readExponentDigits? at h
  dsimp only [digitsAndRest] at h
  split at h
  · cases h
  · cases h
    exact clear_digits s

theorem clear_readExponent? {exponent : Option (Bool × List Char)}
    (h : readExponent? s = some (exponent, rest)) : Clear s rest := by
  unfold readExponent? at h
  split at h
  · split at h
    next c s hletter =>
      have hc : Region.plain.step c = some (.plain, c) := by
        rcases hletter with rfl | rfl <;> rfl
      split at h
      · exact .cons hc (.cons rfl (clear_readExponentDigits? h))
      · exact .cons hc (.cons rfl (clear_readExponentDigits? h))
      · exact .cons hc (clear_readExponentDigits? h)
    · cases h
      exact .refl _
  · cases h
    exact .refl _

theorem clear_readUnsigned? {negative : Bool} {value : Json}
    (h : readUnsigned? negative s = some (value, rest)) : Clear s rest := by
  simp only [readUnsigned?, Option.bind_eq_bind, Option.bind_eq_some_iff] at h
  obtain ⟨⟨_, _⟩, hwhole, ⟨_, _⟩, hfraction, ⟨_, _⟩, hexponent, _, _, h⟩ := h
  cases h
  exact (clear_readWhole? hwhole).trans
    ((clear_readFraction? hfraction).trans (clear_readExponent? hexponent))

end Numbers

section Values

variable {s rest : List Char} {value : Json}

theorem clear_readScalar? (h : readScalar? s = some (value, rest)) : Clear s rest := by
  unfold readScalar? at h
  split at h
  case h_1 =>
    cases h
    exact .cons rfl (.cons rfl (.cons rfl (.cons rfl (.refl _))))
  case h_2 =>
    cases h
    exact .cons rfl (.cons rfl (.cons rfl (.cons rfl (.cons rfl (.refl _)))))
  case h_3 =>
    cases h
    exact .cons rfl (.cons rfl (.cons rfl (.cons rfl (.refl _))))
  case h_4 =>
    obtain ⟨⟨text, tail⟩, htail, h⟩ := Option.map_eq_some_iff.mp h
    cases h
    exact (closes_stringTail htail).clear
  case h_5 => exact .cons rfl (clear_readUnsigned? h)
  case h_6 => exact clear_readUnsigned? h

variable {value? : List Char → Option (Json × List Char)}

theorem clear_readItems? (hv : ∀ s item rest, value? s = some (item, rest) → Clear s rest)
    {fuel : Nat} {done : List Json} (h : readItems? value? fuel done s = some (value, rest)) :
    Clear s rest := by
  induction fuel generalizing done s with
  | zero => cases h
  | succ fuel ih =>
    rw [readItems?] at h
    split at h
    · cases h
    next item between hitem =>
      have hbetween := (hv _ _ _ hitem).trans (clear_skipSpace between)
      split at h
      next more hcomma => exact hbetween.trans (hcomma ▸ .cons rfl (ih h))
      next more hclose =>
        cases h
        exact hbetween.trans (hclose ▸ .cons rfl (.refl _))
      · cases h

theorem clear_readArray? (hv : ∀ s item rest, value? s = some (item, rest) → Clear s rest)
    (h : readArray? value? s = some (value, rest)) : Clear s rest := by
  unfold readArray? at h
  have hspace := clear_skipSpace s
  split at h
  next more hclose =>
    cases h
    exact hspace.trans (hclose ▸ .cons rfl (.refl _))
  · exact hspace.trans (clear_readItems? hv h)

theorem clear_readEntry? (hv : ∀ s item rest, value? s = some (item, rest) → Clear s rest)
    {entry : String × Json} (h : readEntry? value? s = some (entry, rest)) : Clear s rest := by
  unfold readEntry? at h
  have hspace := clear_skipSpace s
  split at h
  next tail hquote =>
    split at h
    · cases h
    next key between hkey =>
      have hbetween := (closes_stringTail hkey).clear.trans (clear_skipSpace between)
      split at h
      next more hcolon =>
        obtain ⟨⟨item, last⟩, hitem, h⟩ := Option.map_eq_some_iff.mp h
        cases h
        exact (hquote ▸ hspace).trans
          (hbetween.trans (hcolon ▸ .cons rfl (hv _ _ _ hitem)))
      · cases h
  · cases h

theorem clear_readEntries? (hv : ∀ s item rest, value? s = some (item, rest) → Clear s rest)
    {fuel : Nat} {done : List (String × Json)}
    (h : readEntries? value? fuel done s = some (value, rest)) : Clear s rest := by
  induction fuel generalizing done s with
  | zero => cases h
  | succ fuel ih =>
    rw [readEntries?] at h
    split at h
    · cases h
    next entry between hentry =>
      have hbetween := ( clear_readEntry? hv hentry).trans (clear_skipSpace between)
      split at h
      next more hcomma => exact hbetween.trans (hcomma ▸ .cons rfl (ih h))
      next more hclose =>
        cases h
        exact hbetween.trans (hclose ▸ .cons rfl (.refl _))
      · cases h

theorem clear_readObject? (hv : ∀ s item rest, value? s = some (item, rest) → Clear s rest)
    (h : readObject? value? s = some (value, rest)) : Clear s rest := by
  unfold readObject? at h
  have hspace := clear_skipSpace s
  split at h
  next more hclose =>
    cases h
    exact hspace.trans (hclose ▸ .cons rfl (.refl _))
  · exact hspace.trans (clear_readEntries? hv h)

-- By induction on the levels that are left.
theorem clear_readValue? {n : Nat} (h : readValue? n s = some (value, rest)) : Clear s rest := by
  have hspace := clear_skipSpace s
  induction n generalizing s value rest with
  | zero => exact hspace.trans (clear_readScalar? h)
  | succ n ih =>
    have hv : ∀ s item rest, readValue? n s = some (item, rest) → Clear s rest :=
      fun s _ _ hitem => ih hitem (clear_skipSpace s)
    rw [readValue?] at h
    split at h
    next more hopen => exact hspace.trans (hopen ▸ .cons rfl (clear_readArray? hv h))
    next more hopen => exact hspace.trans (hopen ▸ .cons rfl (clear_readObject? hv h))
    · exact hspace.trans (clear_readScalar? h)

end Values

-- What the plain reader reads has no comments.
theorem blankComments_of_read? {text : List Char} {value : Json} (h : read? text = some value) :
    blankComments text = some text := by
  unfold read? at h
  split at h
  next found rest hfound =>
    split at h
    next hempty =>
      have hrest := (clear_readValue? hfound).trans (clear_skipSpace rest)
      rw [List.isEmpty_iff.mp hempty] at hrest
      exact hrest.blankComments
    · cases h
  · cases h

-- The two readers of a text agree where the text has no comments, and a text with comments is one
-- that the plain reader cannot read.
theorem parse?_of_parseCommented? {text : String} {value : Json}
    (h : parseCommented? text = some value) :
    parse? text = if blankComments text.toList = some text.toList then some value else none := by
  split
  next hclean =>
    rw [parseCommented?, hclean, Option.bind_some] at h
    exact h
  next hcomment =>
    rw [parse?, Option.map_eq_none_iff]
    by_contra hread
    obtain ⟨found, hfound⟩ := Option.ne_none_iff_exists'.mp hread
    exact hcomment (blankComments_of_read? hfound)

end DocPipeline.Json
