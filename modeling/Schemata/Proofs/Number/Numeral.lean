import Mathlib.Data.List.TakeWhile
import Schemata.Number.Decimal
namespace Schemata

/-! The texts that are numbers.

`Numeral` is the grammar: a sign that may be missing, then a name for infinity or for what
is not a number, or digits with at most one point and an exponent that may be missing.
`Number.ofText?_isSome_iff` says that exactly these texts are read. -/

namespace Decimal

inductive Sign : List Char → Prop
  | none : Sign []
  | plus : Sign ['+']
  | minus : Sign ['-']

inductive Exponent : List Char → Prop
  | none : Exponent []
  | some {mark : Char} {sign digits : List Char} (marked : mark = 'e' ∨ mark = 'E')
      (signed : Sign sign) (nonempty : digits ≠ []) (each : ∀ c ∈ digits, isDigit c = true) :
      Exponent (mark :: (sign ++ digits))

/-- What may stand after the sign of a number. -/
inductive Magnitude : List Char → Prop
  | infinity {text : List Char}
      (name : text.map Char.toLower = "inf".toList ∨ text.map Char.toLower = "infinity".toList) :
      Magnitude text
  | nan {text : List Char} (name : text.map Char.toLower = "nan".toList) : Magnitude text
  | whole {digits exponent : List Char} (nonempty : digits ≠ [])
      (each : ∀ c ∈ digits, isDigit c = true) (scaled : Exponent exponent) :
      Magnitude (digits ++ exponent)
  | point {whole fraction exponent : List Char} (nonempty : whole ≠ [] ∨ fraction ≠ [])
      (before : ∀ c ∈ whole, isDigit c = true) (after : ∀ c ∈ fraction, isDigit c = true)
      (scaled : Exponent exponent) : Magnitude (whole ++ '.' :: (fraction ++ exponent))

def Numeral (text : List Char) : Prop :=
  ∃ sign magnitude, Sign sign ∧ Magnitude magnitude ∧ text = sign ++ magnitude

theorem splitSign_spec (text : List Char) :
    ∃ sign, Sign sign ∧ text = sign ++ (splitSign text).2 := by
  rw [splitSign.eq_def]
  split
  · exact ⟨['-'], .minus, rfl⟩
  · exact ⟨['+'], .plus, rfl⟩
  · exact ⟨[], .none, rfl⟩

theorem splitSign_append {sign text : List Char} (signed : Sign sign)
    (unsigned : ∀ rest, text ≠ '-' :: rest ∧ text ≠ '+' :: rest) :
    (splitSign (sign ++ text)).2 = text := by
  cases signed with
  | plus => rfl
  | minus => rfl
  | none =>
      rw [List.nil_append, splitSign.eq_def]
      split
      · exact absurd rfl (unsigned _).1
      · exact absurd rfl (unsigned _).2
      · rfl

theorem head_isDigit {digits rest text : List Char} {c : Char} (nonempty : digits ≠ [])
    (each : ∀ c ∈ digits, isDigit c = true) (same : digits ++ rest = c :: text) :
    isDigit c = true := by
  cases digits with
  | nil => exact absurd rfl nonempty
  | cons first others =>
      rw [List.cons_append, List.cons.injEq] at same
      exact same.1 ▸ each first List.mem_cons_self

theorem exponent?_isSome_iff {text : List Char} :
    (exponent? text).isSome = true ↔ Exponent text := by
  cases text with
  | nil => exact iff_of_true rfl .none
  | cons mark rest =>
      obtain ⟨sign, signed, parts⟩ := splitSign_spec rest
      simp only [exponent?, Option.isSome_ite, Bool.and_eq_true, Bool.or_eq_true,
        decide_eq_true_eq, Bool.not_eq_true', List.isEmpty_eq_false_iff, List.all_eq_true]
      constructor
      · rintro ⟨⟨marked, nonempty⟩, each⟩
        rw [parts]
        exact .some marked signed nonempty each
      · intro scaled
        cases scaled with
        | some marked signed nonempty each =>
            rename_i sign digits
            have unsigned : ∀ rest, digits ≠ '-' :: rest ∧ digits ≠ '+' :: rest := by
              intro rest
              constructor
              · rintro rfl
                exact absurd (each '-' List.mem_cons_self) (by decide)
              · rintro rfl
                exact absurd (each '+' List.mem_cons_self) (by decide)
            rw [splitSign_append signed unsigned]
            exact ⟨⟨marked, nonempty⟩, each⟩

theorem Exponent.stops {exponent : List Char} (scaled : Exponent exponent) :
    exponent.takeWhile isDigit = [] ∧ exponent.dropWhile isDigit = exponent ∧
      ∀ rest, exponent ≠ '.' :: rest := by
  cases scaled with
  | none => exact ⟨rfl, rfl, by simp⟩
  | some marked signed nonempty each =>
      rcases marked with rfl | rfl <;> exact ⟨rfl, rfl, by simp⟩

theorem Magnitude.head {text rest : List Char} {c : Char} (magnitude : Magnitude text)
    (same : text = c :: rest) :
    isDigit c = true ∨ c = '.' ∨ c.toLower = 'i' ∨ c.toLower = 'n' := by
  cases magnitude with
  | infinity name =>
      subst same
      have first : c.toLower = 'i' := by rcases name with name | name <;> simp_all
      exact .inr (.inr (.inl first))
  | nan name =>
      subst same
      exact .inr (.inr (.inr (by simp_all)))
  | whole nonempty each _ => exact .inl (head_isDigit nonempty each same)
  | @point whole _ _ _ before _ _ =>
      cases empty : whole with
      | nil =>
          rw [empty, List.nil_append, List.cons.injEq] at same
          exact .inr (.inl same.1.symm)
      | cons first others => exact .inl (head_isDigit (by simp [empty]) before same)

theorem Magnitude.unsigned {text : List Char} (magnitude : Magnitude text) :
    ∀ rest, text ≠ '-' :: rest ∧ text ≠ '+' :: rest :=
  fun _ => ⟨fun same => absurd (magnitude.head same) (by decide),
    fun same => absurd (magnitude.head same) (by decide)⟩

theorem numeral_iff {text : List Char} : Numeral text ↔ Magnitude (splitSign text).2 := by
  constructor
  · rintro ⟨sign, magnitude, signed, counted, rfl⟩
    rw [splitSign_append signed counted.unsigned]
    exact counted
  · intro counted
    obtain ⟨sign, signed, parts⟩ := splitSign_spec text
    exact ⟨sign, _, signed, counted, parts⟩

section Digits

variable {digits rest : List Char}

theorem takeWhile_digits (each : ∀ c ∈ digits, isDigit c = true)
    (stops : rest.takeWhile isDigit = []) : (digits ++ rest).takeWhile isDigit = digits := by
  rw [List.takeWhile_append_of_pos each, stops, List.append_nil]

theorem dropWhile_digits (each : ∀ c ∈ digits, isDigit c = true)
    (stops : rest.dropWhile isDigit = rest) : (digits ++ rest).dropWhile isDigit = rest := by
  rw [List.dropWhile_append_of_pos each, stops]

end Digits

end Decimal

namespace Number

open Decimal

/-- What is left of a text once its digits and its point have been read. -/
theorem magnitude_parts {text : List Char}
    (unnamed : ¬ (text.map Char.toLower = "inf".toList ∨ text.map Char.toLower = "infinity".toList))
    (number : text.map Char.toLower ≠ "nan".toList) :
    Magnitude text ↔
      (∃ fraction rest, text.dropWhile isDigit = '.' :: (fraction ++ rest) ∧
        (∀ c ∈ fraction, isDigit c = true) ∧
        (text.takeWhile isDigit ≠ [] ∨ fraction ≠ []) ∧ Exponent rest) ∨
      (text.takeWhile isDigit ≠ [] ∧ Exponent (text.dropWhile isDigit)) := by
  constructor
  · intro counted
    cases counted with
    | infinity name => exact absurd name unnamed
    | nan name => exact absurd name number
    | whole nonempty each scaled =>
        obtain ⟨taken, dropped, _⟩ := scaled.stops
        rw [takeWhile_digits each taken, dropWhile_digits each dropped]
        exact .inr ⟨nonempty, scaled⟩
    | point nonempty before after scaled =>
        rw [takeWhile_digits before rfl, dropWhile_digits before rfl]
        exact .inl ⟨_, _, rfl, after, nonempty, scaled⟩
  · have before : ∀ c ∈ text.takeWhile isDigit, isDigit c = true :=
      fun c member => List.mem_takeWhile_imp member
    have parts : text = text.takeWhile isDigit ++ text.dropWhile isDigit :=
      List.takeWhile_append_dropWhile.symm
    rintro (⟨fraction, rest, left, after, nonempty, scaled⟩ | ⟨nonempty, scaled⟩)
    · rw [parts, left]
      exact .point nonempty before after scaled
    · rw [parts]
      exact .whole nonempty before scaled

theorem ofUnsigned?_isSome_iff {negative : Bool} {text : List Char} :
    (ofUnsigned? negative text).isSome = true ↔ Magnitude text := by
  have read : ∀ {whole fraction rest : List Char} {number : Int → Number},
      (if whole.isEmpty && fraction.isEmpty then none
        else (exponent? rest).map number).isSome = true ↔
          (whole ≠ [] ∨ fraction ≠ []) ∧ Exponent rest := by
    intro whole fraction rest number
    rw [← exponent?_isSome_iff]
    cases whole <;> cases fraction <;> simp
  rw [ofUnsigned?]
  dsimp only
  split
  · rename_i name
    simp only [Bool.or_eq_true, decide_eq_true_eq] at name
    exact iff_of_true rfl (.infinity name)
  · rename_i unnamed
    simp only [Bool.or_eq_true, decide_eq_true_eq] at unnamed
    split
    · rename_i name
      exact iff_of_true rfl (.nan name)
    · rename_i number
      rw [magnitude_parts unnamed number]
      split
      · rename_i tail dropped
        rw [read, dropped]
        constructor
        · rintro ⟨nonempty, scaled⟩
          exact .inl ⟨tail.takeWhile isDigit, tail.dropWhile isDigit,
            by rw [List.takeWhile_append_dropWhile], fun c member => List.mem_takeWhile_imp member,
            nonempty, scaled⟩
        · rintro (⟨fraction, rest, same, after, nonempty, scaled⟩ | ⟨_, scaled⟩)
          · obtain ⟨taken, left, _⟩ := scaled.stops
            obtain rfl := List.tail_eq_of_cons_eq same
            rw [takeWhile_digits after taken, dropWhile_digits after left]
            exact ⟨nonempty, scaled⟩
          · exact absurd rfl (scaled.stops.2.2 tail)
      · rename_i unpointed
        rw [read]
        constructor
        · rintro ⟨nonempty, scaled⟩
          exact .inr ⟨by simpa using nonempty, scaled⟩
        · rintro (⟨fraction, rest, pointed, _⟩ | ⟨nonempty, scaled⟩)
          · exact absurd pointed (unpointed _)
          · exact ⟨.inl nonempty, scaled⟩

theorem ofText?_isSome_iff {text : List Char} :
    (ofText? text).isSome = true ↔ Numeral text := by
  rw [numeral_iff, ofText?]
  exact ofUnsigned?_isSome_iff

end Number

end Schemata
