import DocPipeline.Proofs.Json.Written

namespace DocPipeline.Json

theorem skipSpace_append {gap : List Char} (h : IsGap gap) (s : List Char) :
    skipSpace (gap ++ s) = skipSpace s := by
  induction gap with
  | nil => rfl
  | cons c gap ih =>
    obtain ⟨hc, hgap⟩ := List.forall_mem_cons.mp h
    rw [List.cons_append, skipSpace, if_pos hc, ih hgap]

theorem skipSpace_skipSpace (s : List Char) : skipSpace (skipSpace s) = skipSpace s := by
  fun_induction skipSpace s with
  | case1 c rest h ih => exact ih
  | case2 c rest h => rw [skipSpace, if_neg h]
  | case3 => rfl

section Strings

theorem hexDigit?_hexChar : ∀ n < 16, hexDigit? (hexChar n) = some n := by
  decide

theorem hex4?_control {n : Nat} (h : n < 0x20) :
    hex4? '0' '0' (hexChar (n / 16)) (hexChar (n % 16)) = some n := by
  have hz : hexDigit? '0' = some 0 := by decide
  have hhigh := hexDigit?_hexChar (n / 16) (by omega)
  have hlow := hexDigit?_hexChar (n % 16) (by omega)
  simp only [hex4?, hz, hhigh, hlow]
  simp
  omega

-- One character is read from its escape, whichever it is.
theorem stringTail_escapeChar (done : List Char) (c : Char) (rest : List Char) :
    stringTail done (escapeChar c ++ rest) = stringTail (c :: done) rest := by
  unfold escapeChar
  split
  case h_8 _ hquote hbackslash _ _ _ _ _ =>
    split
    next hcontrol =>
      simp only [List.cons_append, List.nil_append, stringTail, hex4?_control hcontrol]
      rw [if_neg (by omega), if_neg (by omega), Char.ofNat_toNat]
    next hcontrol =>
      rw [List.singleton_append, stringTail]
      · rw [if_neg (not_or.mpr ⟨hcontrol, hbackslash⟩)]
      · exact hquote
      · exact fun _ _ _ _ _ h => absurd h hbackslash
      · exact fun _ _ h => absurd h hbackslash
  all_goals rfl

theorem stringTail_escaped (done text rest : List Char) :
    stringTail done (text.flatMap escapeChar ++ '"' :: rest) =
      some (String.ofList (done.reverse ++ text), rest) := by
  induction text generalizing done with
  | nil => rw [List.append_nil]; rfl
  | cons c text ih =>
    rw [List.flatMap_cons, List.append_assoc, stringTail_escapeChar, ih]
    simp

end Strings

section Numbers

-- What a number cannot be continued with.
def Delimits (rest : List Char) : Prop :=
  ∀ c ∈ rest.head?, c.isDigit = false ∧ c ≠ '.' ∧ c ≠ 'e' ∧ c ≠ 'E'

-- Both read decimal digits from the left.
theorem natOfDigits_eq (digits : List Char) : natOfDigits digits = Nat.ofDigitChars 10 digits 0 := by
  simp only [natOfDigits, Nat.ofDigitChars, digitValue, Nat.mul_comm]

-- A number is not written with a leading zero, which would end it after that zero.
theorem head_toDigits {n : Nat} (h : n ≠ 0) : (Nat.toDigits 10 n).head? ≠ some '0' := by
  induction n using Nat.strong_induction_on with
  | _ n ih =>
    by_cases hn : n < 10
    · have hsmall : ∀ m < 10, m ≠ 0 → Nat.digitChar m ≠ '0' := by decide
      rw [Nat.toDigits_of_lt_base hn]
      simpa using hsmall n hn h
    · rw [Nat.toDigits_of_base_le (by decide) (Nat.le_of_not_lt hn),
        List.head?_append_of_ne_nil _ Nat.toDigits_ne_nil]
      exact ih (n / 10) (by omega) (by omega)

theorem digitsAndRest_append {digits rest : List Char} (h : ∀ c ∈ digits, c.isDigit)
    (hr : Delimits rest) : digitsAndRest (digits ++ rest) = (digits, rest) := by
  have hstop : ∀ c ∈ rest.head?, ¬ c.isDigit = true := fun c hc => by simp [(hr c hc).1]
  rw [digitsAndRest, List.takeWhile_append_of_pos h, List.dropWhile_append_of_pos h]
  cases rest with
  | nil => simp
  | cons c rest =>
    have hc := hstop c rfl
    rw [List.takeWhile_cons_of_neg hc, List.dropWhile_cons_of_neg hc, List.append_nil]

theorem isDigit_of_mem_toDigits (n : Nat) : ∀ c ∈ Nat.toDigits 10 n, c.isDigit :=
  fun _ hc => Nat.isDigit_of_mem_toDigits (Nat.succ_pos 9) (le_refl 10) hc

theorem readWhole?_toDigits (n : Nat) {rest : List Char} (h : Delimits rest) :
    readWhole? (Nat.toDigits 10 n ++ rest) = some (Nat.toDigits 10 n, rest) := by
  by_cases hn : n = 0
  · rw [hn, Nat.toDigits_zero, List.singleton_append]
    cases rest with
    | nil => rfl
    | cons c rest => simp [readWhole?, (h c rfl).1]
  · have hdigits := digitsAndRest_append (isDigit_of_mem_toDigits n) h
    have hhead := head_toDigits hn
    have hne : Nat.toDigits 10 n ≠ [] := Nat.toDigits_ne_nil
    generalize Nat.toDigits 10 n = digits at *
    rw [readWhole?, hdigits]
    · simp [hne]
    · intro more hzero
      cases digits with
      | nil => exact hne rfl
      | cons c digits => simp_all

theorem readFraction?_delimits {rest : List Char} (h : Delimits rest) :
    readFraction? rest = some ([], rest) := by
  unfold readFraction?
  split
  · exact absurd rfl (h '.' rfl).2.1
  · rfl

theorem readExponent?_delimits {rest : List Char} (h : Delimits rest) :
    readExponent? rest = some (none, rest) := by
  cases rest with
  | nil => rfl
  | cons c rest =>
    have hc : ¬ (c = 'e' ∨ c = 'E') := not_or.mpr (h c rfl).2.2
    simp only [readExponent?, if_neg hc]

theorem readUnsigned?_toDigits (negative : Bool) (n : Nat) {rest : List Char} (h : Delimits rest)
    {value : Number} (hv : NumberText.value? negative ⟨Nat.toDigits 10 n, [], none⟩ = some value) :
    readUnsigned? negative (Nat.toDigits 10 n ++ rest) = some (number value, rest) := by
  simp [readUnsigned?, readWhole?_toDigits n h, readFraction?_delimits h, readExponent?_delimits h,
    hv]

theorem readScalar?_of_isDigit {c : Char} (h : c.isDigit) (s : List Char) :
    readScalar? (c :: s) = readUnsigned? false (c :: s) := by
  unfold readScalar?
  split
  case h_6 => rfl
  all_goals
    rename_i heq
    obtain ⟨rfl, -⟩ := List.cons.inj heq
    exact absurd h (by decide)

-- An integer with its sign is read up to the first character that cannot belong to a number.
theorem readScalar?_integer {n : Int} (hn : InRange n) {rest : List Char} (h : Delimits rest) :
    readScalar? ((toString n).toList ++ rest) = some (number (.integer n), rest) := by
  obtain ⟨hlow, hhigh⟩ := hn
  cases n with
  | ofNat n =>
    have htext : (toString (Int.ofNat n)).toList = Nat.toDigits 10 n := by
      simp [Int.repr_eq_if, Nat.repr_eq_ofList_toDigits]
    have hvalue : NumberText.value? false ⟨Nat.toDigits 10 n, [], none⟩ =
        some (.integer (.ofNat n)) := by
      have hle : n ≤ maxSignificand := Int.ofNat_le.mp hhigh
      simp [NumberText.value?, natOfDigits_eq, hle]
    obtain ⟨c, digits, hdigits⟩ :=
      List.exists_cons_of_ne_nil (Nat.toDigits_ne_nil : Nat.toDigits 10 n ≠ [])
    have hc : c.isDigit := isDigit_of_mem_toDigits n c (by simp [hdigits])
    have hread := readUnsigned?_toDigits false n h hvalue
    rw [htext, ← hread, hdigits, List.cons_append, readScalar?_of_isDigit hc]
  | negSucc n =>
    have htext : (toString (Int.negSucc n)).toList = '-' :: Nat.toDigits 10 (n + 1) := by
      simp [Int.repr_eq_if, Nat.repr_eq_ofList_toDigits]
    have hvalue : NumberText.value? true ⟨Nat.toDigits 10 (n + 1), [], none⟩ =
        some (.integer (.negSucc n)) := by
      have hle : n + 1 ≤ 0x8000000000000000 := by omega
      simp [NumberText.value?, natOfDigits_eq, hle, Int.negSucc_eq]
    rw [htext]
    exact readUnsigned?_toDigits true (n + 1) h hvalue

end Numbers

section Reading

variable {n : Nat} {s rest : List Char} {result : Json × List Char}

theorem readScalar?_eq_none {c : Char} (h : c ∈ [' ', '\n', '\t', '\r', '[', '{', ']'])
    (s : List Char) : readScalar? (c :: s) = none := by
  simp only [List.mem_cons, List.not_mem_nil, or_false] at h
  rcases h with rfl | rfl | rfl | rfl | rfl | rfl | rfl <;> rfl

theorem readValue?_skipSpace (n : Nat) (s : List Char) :
    readValue? n (skipSpace s) = readValue? n s := by
  cases n <;> simp only [readValue?, skipSpace_skipSpace]

theorem readValue?_append (n : Nat) {gap : List Char} (h : IsGap gap) (s : List Char) :
    readValue? n (gap ++ s) = readValue? n s := by
  rw [← readValue?_skipSpace, skipSpace_append h, readValue?_skipSpace]

-- Whatever may nest, a scalar is read as it is: it begins with no bracket and no space.
theorem readValue?_of_readScalar? (h : readScalar? s = some result) :
    readValue? n s = some result := by
  cases s with
  | nil => cases h
  | cons c s =>
    have hc : c ∉ [' ', '\n', '\t', '\r', '[', '{', ']'] := by
      intro hc
      rw [readScalar?_eq_none hc] at h
      cases h
    simp only [List.mem_cons, List.not_mem_nil, or_false, not_or] at hc
    obtain ⟨h₁, h₂, h₃, h₄, harray, hobject, -⟩ := hc
    have hskip : skipSpace (c :: s) = c :: s := by simp [skipSpace, h₁, h₂, h₃, h₄]
    cases n with
    | zero => rw [readValue?, hskip, h]
    | succ n =>
      rw [readValue?, hskip]
      split
      next heq => exact absurd (List.cons.inj heq).1 harray
      next heq => exact absurd (List.cons.inj heq).1 hobject
      next => exact h

theorem readValue?_close (n : Nat) (s : List Char) : readValue? n (']' :: s) = none := by
  cases n <;> rfl

-- A number in an array or object ends before the space, comma or bracket after it.
theorem delimits_close {gap : List Char} (h : IsGap gap) (c : Char) (hc : c ∈ [',', ']', '}'])
    (s : List Char) : Delimits (gap ++ c :: s) := by
  have hmark : ∀ d, (d = ' ' ∨ d = '\n' ∨ d = '\t' ∨ d = '\r') ∨ d ∈ [',', ']', '}'] →
      d.isDigit = false ∧ d ≠ '.' ∧ d ≠ 'e' ∧ d ≠ 'E' := by
    intro d hd
    simp only [List.mem_cons, List.not_mem_nil, or_false] at hd
    rcases hd with (rfl | rfl | rfl | rfl) | rfl | rfl | rfl <;> decide
  cases gap with
  | nil =>
    intro d hd
    obtain rfl : c = d := Option.some.inj hd
    exact hmark c (.inr hc)
  | cons g gap =>
    intro d hd
    obtain rfl : g = d := Option.some.inj hd
    exact hmark g (.inl (h g List.mem_cons_self))

theorem readItems?_skipSpace (fuel : Nat) (done : List Json) (s : List Char) :
    readItems? (readValue? n) fuel done (skipSpace s) = readItems? (readValue? n) fuel done s := by
  cases fuel with
  | zero => rfl
  | succ fuel => rw [readItems?, readItems?, readValue?_skipSpace]

theorem readEntry?_skipSpace (s : List Char) :
    readEntry? (readValue? n) (skipSpace s) = readEntry? (readValue? n) s := by
  rw [ readEntry?, readEntry?, skipSpace_skipSpace]

theorem readEntries?_skipSpace (fuel : Nat) (done : List (String × Json)) (s : List Char) :
    readEntries? (readValue? n) fuel done (skipSpace s) =
      readEntries? (readValue? n) fuel done s := by
  cases fuel with
  | zero => rfl
  | succ fuel => rw [readEntries?, readEntries?, readEntry?_skipSpace]

theorem readEntry?_written (key : String) {value : Json} {gap between text : List Char}
    (hgap : IsGap gap) (hbetween : IsGap between)
    (h : readValue? n (text ++ rest) = some (value, rest)) :
    readEntry? (readValue? n) (gap ++ quoted key ++ ':' :: (between ++ text) ++ rest) =
      some ((key, value), rest) := by
  have htext : gap ++ quoted key ++ ':' :: (between ++ text) ++ rest =
      gap ++ '"' :: (key.toList.flatMap escapeChar ++ '"' :: ':' :: (between ++ (text ++ rest))) := by
    simp [quoted]
  have hquote : ∀ s, skipSpace ('"' :: s) = '"' :: s := fun _ => by simp [skipSpace]
  have hcolon : ∀ s, skipSpace (':' :: s) = ':' :: s := fun _ => by simp [skipSpace]
  simp only [htext, readEntry?, skipSpace_append hgap, hquote, stringTail_escaped, hcolon,
    readValue?_append n hbetween, h]
  simp

theorem length_skipSpace_le (s : List Char) : (skipSpace s).length ≤ s.length := by
  fun_induction skipSpace s with
  | case1 c rest _ ih => exact Nat.le_succ_of_le ih
  | case2 => exact le_rfl
  | case3 => exact le_rfl

-- What follows a gap is at least what there is from a mark on.
theorem length_le_skipSpace (before : List Char) (c : Char) (hc : c ∈ [',', ']', '}'])
    (s : List Char) : (c :: s).length ≤ (skipSpace (before ++ c :: s)).length := by
  induction before with
  | nil =>
    have hstay : skipSpace (c :: s) = c :: s := by
      simp only [List.mem_cons, List.not_mem_nil, or_false] at hc
      rcases hc with rfl | rfl | rfl <;> simp [skipSpace]
    rw [List.nil_append, hstay]
  | cons b before ih =>
    rw [List.cons_append, skipSpace]
    split
    · exact ih
    · simp only [List.length_cons, List.length_append]
      omega

-- Every item takes at least one character, so the length of the text is fuel enough.
theorem WrittenItems.length_le {items : List Json} {text : List Char} (h : WrittenItems items text)
    (rest : List Char) : items.length ≤ (skipSpace (text ++ rest)).length := by
  induction items generalizing text with
  | nil => exact Nat.zero_le _
  | cons item items ih =>
    cases h with
    | @last _ gap text close =>
      have hlength := length_le_skipSpace (gap ++ text ++ close) ']' (by simp) rest
      simp only [List.append_assoc, List.singleton_append, List.length_cons,
        List.length_nil] at hlength ⊢
      omega
    | @cons _ next items gap text more _ _ hmore =>
      have hlength := length_le_skipSpace (gap ++ text) ',' (by simp) (more ++ rest)
      have hrest := ih hmore
      have hskip : (skipSpace (more ++ rest)).length ≤ (more ++ rest).length :=
        length_skipSpace_le _
      simp only [List.append_assoc, List.cons_append, List.length_cons] at hlength hrest ⊢
      omega

theorem WrittenEntries.length_le {entries : List (String × Json)} {text : List Char}
    (h : WrittenEntries entries text) (rest : List Char) :
    entries.length ≤ (skipSpace (text ++ rest)).length := by
  induction entries generalizing text with
  | nil => exact Nat.zero_le _
  | cons entry entries ih =>
    cases h with
    | @last key _ gap between text close =>
      have hlength := length_le_skipSpace (gap ++ quoted key ++ ':' :: (between ++ text) ++ close)
        '}' (by simp) rest
      simp only [List.append_assoc, List.cons_append, List.nil_append, List.length_cons,
        List.length_nil] at hlength ⊢
      omega
    | @cons key _ next entries gap between text more _ _ _ hmore =>
      have hlength := length_le_skipSpace (gap ++ quoted key ++ ':' :: (between ++ text))
        ',' (by simp) (more ++ rest)
      have hrest := ih hmore
      have hskip : (skipSpace (more ++ rest)).length ≤ (more ++ rest).length :=
        length_skipSpace_le _
      simp only [List.append_assoc, List.cons_append, List.length_cons] at hlength hrest ⊢
      omega

mutual

-- By induction on the value, with any text for it. What has been read before is in `done`.
theorem readValue?_written : ∀ (value : Json) {n : Nat} {text rest : List Char},
    Written value text → value.depth ≤ n → value.Integral → Delimits rest →
    readValue? n (text ++ rest) = some (value, rest)
  | .null, _, _, _, h, _, _, _ => by
    cases h
    have htext : scalarText null = ['n', 'u', 'l', 'l'] := by decide
    rw [htext]
    exact readValue?_of_readScalar? rfl
  | .bool true, _, _, _, h, _, _, _ => by
    cases h
    have htext : scalarText (bool true) = ['t', 'r', 'u', 'e'] := by decide
    rw [htext]
    exact readValue?_of_readScalar? rfl
  | .bool false, _, _, _, h, _, _, _ => by
    cases h
    have htext : scalarText (bool false) = ['f', 'a', 'l', 's', 'e'] := by decide
    rw [htext]
    exact readValue?_of_readScalar? rfl
  | .number value, _, _, _, h, _, hi, hr => by
    cases h
    cases value with
    | integer i => exact readValue?_of_readScalar? (readScalar?_integer hi hr)
    | double bits => exact hi.elim
  | .string value, _, _, _, h, _, _, _ => by
    cases h
    apply readValue?_of_readScalar?
    simp [scalarText, quoted, readScalar?, stringTail_escaped]
  | .array items, n, _, rest, h, hd, hi, _ => by
    cases h with
    | array h =>
      cases n with
      | zero => cases hd
      | succ n =>
        have hread := readArray?_written items h (Nat.le_of_succ_le_succ hd) hi rest
        simpa [readValue?, skipSpace] using hread
  | .object entries, n, _, rest, h, hd, hi, _ => by
    cases h with
    | object h =>
      cases n with
      | zero => cases hd
      | succ n =>
        have hread := readObject?_written entries h (Nat.le_of_succ_le_succ hd) hi rest
        simpa [readValue?, skipSpace] using hread
termination_by value => (sizeOf value, 0)

theorem readArray?_written : ∀ (items : List Json) {n : Nat} {text : List Char},
    WrittenItems items text → depthItems items ≤ n → IntegralItems items →
    ∀ rest, readArray? (readValue? n) (text ++ rest) = some (array items, rest)
  | [], _, _, h, _, _, _ => by
    cases h
    rfl
  | item :: more, n, text, h, hd, hi, rest => by
    have hfuel := Nat.le_succ_of_le (h.length_le rest)
    have hread := readItems?_written (item :: more) nofun [] rest h hd hi hfuel
    rw [← readItems?_skipSpace] at hread
    unfold readArray?
    split
    next hclose =>
      -- No item begins with the bracket that closes the array.
      rw [hclose, readItems?, readValue?_close] at hread
      cases hread
    next => exact hread
termination_by items => (sizeOf items, 1)

theorem readItems?_written : ∀ (items : List Json), items ≠ [] →
    ∀ {n fuel : Nat} (done : List Json) {text : List Char} (rest : List Char),
    WrittenItems items text → depthItems items ≤ n → IntegralItems items → items.length ≤ fuel →
    readItems? (readValue? n) fuel done (text ++ rest) = some (array (done.reverse ++ items), rest)
  | [], h, _, _, _, _, _, _, _, _, _ => absurd rfl h
  | [item], _, n, fuel + 1, done, _, rest, h, hd, hi, _ => by
    cases h with
    | @last _ gap text close hgap hitem hclose =>
      have hread := readValue?_written item hitem (le_of_max_le_left hd) hi.1
        (delimits_close hclose ']' (by simp) rest)
      have hmark : skipSpace (']' :: rest) = ']' :: rest := by simp [skipSpace]
      simp only [List.append_assoc, List.singleton_append] at hread ⊢
      simp only [readItems?, readValue?_append n hgap, hread, skipSpace_append hclose, hmark,
        List.reverse_cons]
  | item :: next :: more, _, n, fuel + 1, done, _, rest, h, hd, hi, hf => by
    cases h with
    | @cons _ _ _ gap text more hgap hitem hmore =>
      have hread := readValue?_written item hitem (le_of_max_le_left hd) hi.1
        (delimits_close isGap_nil ',' (by simp) (more ++ rest))
      have hrest := readItems?_written (next :: _) nofun (item :: done) rest hmore
        (le_of_max_le_right hd) hi.2 (Nat.le_of_succ_le_succ hf)
      have hmark : skipSpace (',' :: (more ++ rest)) = ',' :: (more ++ rest) := by simp [skipSpace]
      simp only [List.append_assoc, List.cons_append, List.nil_append] at hread ⊢
      simp only [readItems?, readValue?_append n hgap, hread, hmark, hrest, List.reverse_cons,
        List.append_assoc, List.singleton_append]
termination_by items => (sizeOf items, 0)

theorem readObject?_written : ∀ (entries : List (String × Json)) {n : Nat} {text : List Char},
    WrittenEntries entries text → depthEntries entries ≤ n → IntegralEntries entries →
    ∀ rest, readObject? (readValue? n) (text ++ rest) = some (object entries, rest)
  | [], _, _, h, _, _, _ => by
    cases h
    rfl
  | entry :: more, n, text, h, hd, hi, rest => by
    have hfuel := Nat.le_succ_of_le (h.length_le rest)
    have hread := readEntries?_written (entry :: more) nofun [] rest h hd hi hfuel
    rw [← readEntries?_skipSpace] at hread
    unfold readObject?
    split
    next hclose =>
      rw [hclose, readEntries?] at hread
      cases hread
    next => exact hread
termination_by entries => (sizeOf entries, 1)

theorem readEntries?_written : ∀ (entries : List (String × Json)), entries ≠ [] →
    ∀ {n fuel : Nat} (done : List (String × Json)) {text : List Char} (rest : List Char),
    WrittenEntries entries text → depthEntries entries ≤ n → IntegralEntries entries →
    entries.length ≤ fuel →
    readEntries? (readValue? n) fuel done (text ++ rest) =
      some (object (done.reverse ++ entries), rest)
  | [], h, _, _, _, _, _, _, _, _, _ => absurd rfl h
  | [(key, value)], _, n, fuel + 1, done, _, rest, h, hd, hi, _ => by
    cases h with
    | @last _ _ gap between text close hgap hbetween hvalue hclose =>
      have hread := readValue?_written value hvalue (le_of_max_le_left hd) hi.1
        (delimits_close hclose '}' (by simp) rest)
      have hentry := readEntry?_written key hgap hbetween hread
      have hmark : skipSpace ('}' :: rest) = '}' :: rest := by simp [skipSpace]
      simp only [List.append_assoc, List.cons_append, List.nil_append] at hentry ⊢
      simp only [readEntries?, hentry, skipSpace_append hclose, hmark, List.reverse_cons]
  | (key, value) :: next :: more, _, n, fuel + 1, done, _, rest, h, hd, hi, hf => by
    cases h with
    | @cons _ _ _ _ gap between text more hgap hbetween hvalue hmore =>
      have hread := readValue?_written value hvalue (le_of_max_le_left hd) hi.1
        (delimits_close isGap_nil ',' (by simp) (more ++ rest))
      have hentry := readEntry?_written key hgap hbetween hread
      have hrest := readEntries?_written (next :: _) nofun ((key, value) :: done) rest hmore
        (le_of_max_le_right hd) hi.2 (Nat.le_of_succ_le_succ hf)
      have hmark : skipSpace (',' :: (more ++ rest)) = ',' :: (more ++ rest) := by simp [skipSpace]
      simp only [List.append_assoc, List.cons_append, List.nil_append] at hentry ⊢
      simp only [readEntries?, hentry, hmark, hrest, List.reverse_cons, List.append_assoc,
        List.singleton_append]
termination_by entries => (sizeOf entries, 0)

end

-- Every text of a value is read as the value.
theorem read?_written {value : Json} {text : List Char} (h : Written value text)
    (hd : value.depth ≤ maxDepth) (hi : value.Integral) : read? text = some value := by
  have hread : readValue? maxDepth (text ++ []) = some (value, []) :=
    readValue?_written value h hd hi nofun
  rw [List.append_nil] at hread
  rw [read?, hread]
  rfl

end Reading

section Depth

variable {n : Nat} {s rest : List Char} {value : Json}

theorem depth_of_readUnsigned? {negative : Bool} (h : readUnsigned? negative s = some (value, rest)) :
    value.depth = 0 := by
  simp only [readUnsigned?, Option.bind_eq_bind, Option.bind_eq_some_iff] at h
  obtain ⟨_, _, _, _, _, _, _, _, h⟩ := h
  cases h
  rfl

theorem depth_of_readScalar? (h : readScalar? s = some (value, rest)) : value.depth = 0 := by
  unfold readScalar? at h
  split at h
  case h_4 =>
    obtain ⟨_, _, h⟩ := Option.map_eq_some_iff.mp h
    cases h
    rfl
  case h_5 => exact depth_of_readUnsigned? h
  case h_6 => exact depth_of_readUnsigned? h
  all_goals
    cases h
    rfl

variable {value? : List Char → Option (Json × List Char)}

theorem depth_of_readItems? (hv : ∀ s item rest, value? s = some (item, rest) → item.depth ≤ n)
    {fuel : Nat} {done : List Json} (hdone : ∀ item ∈ done, item.depth ≤ n)
    (h : readItems? value? fuel done s = some (value, rest)) : value.depth ≤ n + 1 := by
  induction fuel generalizing done s with
  | zero => cases h
  | succ fuel ih =>
    rw [readItems?] at h
    split at h
    · cases h
    next item between hitem =>
      have hall : ∀ any ∈ item :: done, any.depth ≤ n :=
        List.forall_mem_cons.mpr ⟨hv _ _ _ hitem, hdone⟩
      split at h
      · exact ih hall h
      · cases h
        exact Nat.succ_le_succ
          (depthItems_le_iff.mpr fun any hmem => hall any (List.mem_reverse.mp hmem))
      · cases h

theorem depth_of_readArray? (hv : ∀ s item rest, value? s = some (item, rest) → item.depth ≤ n)
    (h : readArray? value? s = some (value, rest)) : value.depth ≤ n + 1 := by
  unfold readArray? at h
  split at h
  · cases h
    exact Nat.succ_le_succ (Nat.zero_le n)
  · exact depth_of_readItems? hv (by simp) h

theorem depth_of_readEntry? (hv : ∀ s item rest, value? s = some (item, rest) → item.depth ≤ n)
    {entry : String × Json} (h : readEntry? value? s = some (entry, rest)) : entry.2.depth ≤ n := by
  unfold readEntry? at h
  split at h
  · split at h
    · cases h
    · split at h
      · obtain ⟨⟨item, more⟩, hitem, h⟩ := Option.map_eq_some_iff.mp h
        cases h
        exact hv _ _ _ hitem
      · cases h
  · cases h

theorem depth_of_readEntries? (hv : ∀ s item rest, value? s = some (item, rest) → item.depth ≤ n)
    {fuel : Nat} {done : List (String × Json)} (hdone : ∀ entry ∈ done, entry.2.depth ≤ n)
    (h : readEntries? value? fuel done s = some (value, rest)) : value.depth ≤ n + 1 := by
  induction fuel generalizing done s with
  | zero => cases h
  | succ fuel ih =>
    rw [readEntries?] at h
    split at h
    · cases h
    next entry between hentry =>
      have hall : ∀ any ∈ entry :: done, any.2.depth ≤ n :=
        List.forall_mem_cons.mpr ⟨ depth_of_readEntry? hv hentry, hdone⟩
      split at h
      · exact ih hall h
      · cases h
        exact Nat.succ_le_succ
          (depthEntries_le_iff.mpr fun any hmem => hall any (List.mem_reverse.mp hmem))
      · cases h

theorem depth_of_readObject? (hv : ∀ s item rest, value? s = some (item, rest) → item.depth ≤ n)
    (h : readObject? value? s = some (value, rest)) : value.depth ≤ n + 1 := by
  unfold readObject? at h
  split at h
  · cases h
    exact Nat.succ_le_succ (Nat.zero_le n)
  · exact depth_of_readEntries? hv (by simp) h

-- By induction on the levels that are left.
theorem depth_of_readValue? (h : readValue? n s = some (value, rest)) : value.depth ≤ n := by
  induction n generalizing s value rest with
  | zero => exact (depth_of_readScalar? h).le
  | succ n ih =>
    rw [readValue?] at h
    split at h
    · exact depth_of_readArray? (fun _ _ _ => ih) h
    · exact depth_of_readObject? (fun _ _ _ => ih) h
    · exact (depth_of_readScalar? h).trans_le (Nat.zero_le _)

theorem depth_of_read? {text : List Char} (h : read? text = some value) :
    value.depth ≤ maxDepth := by
  unfold read? at h
  split at h
  next found _ hfound =>
    split at h
    · cases h
      exact depth_of_readValue? hfound
    · cases h
  · cases h

end Depth

end DocPipeline.Json
