import DocPipeline.Proofs.Effect
import DocPipeline.Proofs.Path.Names
import DocPipeline.Glob.Basic

namespace DocPipeline.Glob

open DocPipeline.Path (ofNames IsStep)

-- A character that stands for itself in every pattern.
def IsPlain (c : Char) : Prop := c ≠ '?' ∧ c ≠ '*' ∧ c ≠ '['

instance (c : Char) : Decidable (IsPlain c) :=
  inferInstanceAs (Decidable (c ≠ '?' ∧ c ≠ '*' ∧ c ≠ '['))

variable {n position : Nat} {before : Option Char} {text front rest : List Char}

theorem readTokens_plain {c : Char} (h : IsPlain c) :
    readTokens (n + 1) position before (c :: rest) =
      (readTokens n (position + 1) (some c) rest).map (.char c :: ·) := by
  obtain ⟨hany, hstar, hset⟩ := h
  rw [readTokens, if_neg hany, if_neg hstar, if_neg hset]
  cases readTokens n (position + 1) (some c) rest <;> rfl

theorem readTokens_append (h : ∀ c ∈ front, IsPlain c) :
    readTokens (n + front.length) position before (front ++ rest) =
      (readTokens n (position + front.length) (front.getLast?.or before) rest).map
        (front.map Token.char ++ ·) := by
  induction front generalizing position before with
  | nil =>
    simp only [List.length_nil, List.nil_append, Nat.add_zero, List.getLast?_nil, Option.none_or,
      List.map_nil]
    cases readTokens n position before rest <;> rfl
  | cons c front ih =>
    obtain ⟨hc, hfront⟩ := List.forall_mem_cons.mp h
    have hlast : (c :: front).getLast?.or before = front.getLast?.or (some c) := by
      cases front <;> simp [List.getLast?_cons]
    rw [List.cons_append, List.length_cons, ← Nat.add_assoc, readTokens_plain hc, ih hfront, hlast,
      Nat.add_right_comm, Nat.add_assoc position]
    cases readTokens n _ _ rest with
    | error e => rfl
    | ok tokens => rfl

theorem toOption_bind_congr {ε α β : Type} {x y : Except ε α} (h : x.toOption = y.toOption)
    (f : α → Except ε β) : (x >>= f).toOption = (y >>= f).toOption := by
  cases x <;> cases y <;> cases h <;> rfl

-- The tokens do not depend on the position, nor does whether there are any.
theorem readTokens_position (n position other : Nat) (before : Option Char) (text : List Char) :
    (readTokens n position before text).toOption = (readTokens n other before text).toOption := by
  induction n generalizing position other before text with
  | zero => cases text <;> rfl
  | succ n ih =>
    cases text with
    | nil => rfl
    | cons c rest =>
      simp only [readTokens]
      split
      · exact toOption_bind_congr (ih _ _ _ _) _
      · split
        · split
          · rfl
          · split
            · exact toOption_bind_congr (ih _ _ _ _) _
            · split
              · split
                · rfl
                · split
                  · exact toOption_bind_congr (ih _ _ _ _) _
                  · rfl
              · rfl
        · split
          · split
            · rfl
            · exact toOption_bind_congr (ih _ _ _ _) _
          · exact toOption_bind_congr (ih _ _ _ _) _

theorem tokens_plain (h : ∀ c ∈ text, IsPlain c) : tokens text = .ok (text.map .char) := by
  have happend : readTokens (1 + text.length) 0 none (text ++ []) = _ := readTokens_append h
  rw [List.append_nil, Nat.add_comm] at happend
  rw [tokens, happend]
  simp [readTokens, Except.map]

theorem literal?_map_char (text : List Char) :
    literal? (text.map .char) = some (String.ofList text) := by
  have h : (text.map Token.char).mapM Token.char? = some text := by
    induction text with
    | nil => rfl
    | cons c text ih =>
      rw [List.map_cons, List.mapM_cons, ih]
      rfl
  rw [literal?, h]
  rfl

theorem char?_of_set? {token : Token} (h : set? text = some (token, rest)) :
    token.char? = none := by
  unfold set? at h
  split at h
  · split at h <;> cases h
    rfl
  · split at h <;> cases h
    rfl
  · cases h

-- Any other character begins with a token that is no character.
theorem exists_of_not_isPlain {c : Char} (hc : ¬ IsPlain c) {tokens : List Token}
    (h : readTokens (n + 1) position before (c :: rest) = .ok tokens) :
    ∃ token more, tokens = token :: more ∧ token.char? = none := by
  rw [readTokens] at h
  split at h
  · obtain ⟨more, _, h⟩ := except_bind_eq_ok h
    cases h
    exact ⟨_, more, rfl, rfl⟩
  next hany =>
    split at h
    · dsimp only at h
      split at h
      · cases h
      · split at h
        · obtain ⟨more, _, h⟩ := except_bind_eq_ok h
          cases h
          exact ⟨_, more, rfl, rfl⟩
        · split at h
          · split at h
            · cases h
              exact ⟨_, [], rfl, rfl⟩
            · split at h
              · obtain ⟨more, _, h⟩ := except_bind_eq_ok h
                cases h
                exact ⟨_, more, rfl, rfl⟩
              · cases h
          · cases h
    next hstar =>
      split at h
      · split at h
        · cases h
        next token after hset =>
          obtain ⟨more, _, h⟩ := except_bind_eq_ok h
          cases h
          exact ⟨token, more, rfl, char?_of_set? hset⟩
      next hset => exact absurd ⟨hany, hstar, hset⟩ hc

-- Where every token stands for one character, these are the characters that were read.
theorem eq_of_readTokens {tokens : List Token} {chars : List Char}
    (h : readTokens n position before text = .ok tokens) (hn : text.length < n)
    (hc : tokens.mapM Token.char? = some chars) : chars = text := by
  induction n generalizing position before text tokens chars with
  | zero => exact absurd hn (Nat.not_lt_zero _)
  | succ n ih =>
    cases text with
    | nil =>
      cases h
      cases hc
      rfl
    | cons c rest =>
      by_cases hplain : IsPlain c
      · rw [readTokens_plain hplain] at h
        obtain ⟨more, hmore, rfl⟩ : ∃ more, readTokens n (position + 1) (some c) rest = .ok more ∧
            .char c :: more = tokens := by
          cases hr : readTokens n (position + 1) (some c) rest <;> rw [hr] at h <;> cases h
          exact ⟨_, rfl, rfl⟩
        rw [List.mapM_cons] at hc
        obtain ⟨first, hfirst, hc⟩ := Option.bind_eq_some_iff.mp hc
        obtain ⟨others, hothers, hc⟩ := Option.bind_eq_some_iff.mp hc
        cases hfirst
        cases hc
        rw [ih hmore (Nat.lt_of_succ_lt_succ hn) hothers]
      · obtain ⟨token, more, rfl, hnone⟩ := exists_of_not_isPlain hplain h
        rw [List.mapM_cons, hnone] at hc
        cases hc

-- A segment without wildcards is the text it was read from.
theorem literal?_tokens {tokens : List Token} {name : String}
    (h : Glob.tokens text = .ok tokens) (hl : literal? tokens = some name) : name.toList = text := by
  obtain ⟨chars, hchars, rfl⟩ := Option.map_eq_some_iff.mp hl
  rw [String.toList_ofList]
  exact eq_of_readTokens h (Nat.lt_succ_self _) hchars

end DocPipeline.Glob
