import KeetaNode.Lib.Numeral

/-!
# Amounts as text

An amount is printed as a decimal integer. Parsing strips a minus sign and the hexadecimal
marker by hand and hands the rest to the parser of the big-integer library, which takes a
sign of its own and skips underscores.

- `keetanetwork-block/src/amount.rs`

## Main results

- `Amount.fromStr_toString`: a printed amount is read back
- `Amount.parsesExactly_iff`: which texts are parsed exactly
-/

namespace KeetaNode

open ByteCodec

/-! ## The library -/

inductive ParseBigIntError where
  | empty
  | invalidDigit
  deriving DecidableEq, Repr

/-- What amounts take from the crate `num-bigint`. -/
class BigIntParser where
  /-- `from_str_radix` of `BigInt`; its `FromStr` is the one with radix ten. -/
  fromStrRadix : (text : String) → (radix : Nat) → Except ParseBigIntError Int

/-- A number with an optional sign. Its first digit may be followed by digits and underscores,
which are skipped. -/
def SignedNumber (radix : Nat) (text : List Char) (n : Int) : Prop :=
  ∃ (sign body : List Char) (m : Nat), text = sign ++ body ∧ sign ∈ [[], ['+'], ['-']] ∧
    body ≠ [] ∧ body.head? ≠ some '_' ∧
    natOfDigits radix (body.filter (· ≠ '_')) = some m ∧ n = if sign = ['-'] then -(m : Int) else m

/-- The documented language of the library's parser. -/
class LawfulBigIntParser [BigIntParser] : Prop where
  fromStrRadix_eq_ok {text : String} {radix : Nat} {n : Int} : 1 < radix → radix ≤ 16 →
    (BigIntParser.fromStrRadix text radix = .ok n ↔ SignedNumber radix text.toList n)

/-! ## Parsing -/

namespace Amount

/-- `Display`. -/
def toString (amount : Int) : String := ToString.toString amount

/-- The sign that is stripped by hand, and the magnitude. -/
def stripSign (s : String) : Bool × String :=
  match stripStart s "-" with
  | some rest => (true, rest)
  | none => (false, s)

/-- The radix of a magnitude, and the digits that are handed to the library. -/
def stripMarker (magnitude : String) : Nat × String :=
  match stripStart magnitude "0x" with
  | some hexDigits => (16, hexDigits)
  | none => (10, magnitude)

/-- `FromStr`. -/
def fromStr [BigIntParser] (s : String) : Except ParseBigIntError Int := do
  let (negative, magnitude) := stripSign s
  let (radix, digits) := stripMarker magnitude
  let value ← BigIntParser.fromStrRadix digits radix
  return if negative then -value else value

/-! ## The texts of amounts -/

/-- A minus sign or none, then decimal digits, or the marker and hexadecimal ones. -/
def Denotes (s : String) (n : Int) : Prop :=
  ∃ (negative hex : Bool) (digits : List Char) (m : Nat),
    s.toList = (if negative then ['-'] else []) ++ (if hex then ['0', 'x'] else []) ++ digits ∧
      digits ≠ [] ∧ natOfDigits (if hex then 16 else 10) digits = some m ∧
        n = if negative then -(m : Int) else m

/-- The text is an amount exactly when it is parsed, and then the one that it denotes. -/
def ParsesExactly [BigIntParser] (s : String) : Prop :=
  ∀ n, fromStr s = .ok n ↔ Denotes s n

/-- What is left after the sign and the marker is a number to the library, but has a sign or
an underscore. -/
def Decorated (s : String) : Prop :=
  let (radix, digits) := stripMarker (stripSign s).2
  (∃ n, SignedNumber radix digits.toList n) ∧
    ∃ mark ∈ ['+', '-', '_'], mark ∈ digits.toList

/-! ## Plain numbers -/

section Plain

variable {radix m : Nat} {digits : List Char} {n : Int}

theorem notMem_of_natOfDigits (h : natOfDigits radix digits = some m) :
    ∀ mark ∈ ['+', '-', '_'], mark ∉ digits := by
  intro mark hmark hmem
  have hdigit := mem_digits_of_natOfDigits h hmem
  simp only [List.mem_cons, List.not_mem_nil, or_false] at hmark
  rcases hmark with rfl | rfl | rfl <;> simp [digitIn_sign] at hdigit

/-- The digits of a number are one to the library. -/
theorem signedNumber_of_natOfDigits (hne : digits ≠ [])
    (h : natOfDigits radix digits = some m) : SignedNumber radix digits m := by
  have hmarks := notMem_of_natOfDigits h
  refine ⟨[], digits, m, rfl, by simp, hne, ?_, ?_, by simp⟩
  · intro hhead
    exact hmarks '_' (by simp) (List.mem_of_mem_head? hhead)
  · rw [List.filter_eq_self.mpr, h]
    intro digit hdigit
    simp only [ne_eq, decide_not, Bool.not_eq_true', decide_eq_false_iff_not]
    rintro rfl
    exact hmarks '_' (by simp) hdigit

/-- Without a sign and underscores, a number to the library is its digits. -/
theorem signedNumber_iff (hmarks : ∀ mark ∈ ['+', '-', '_'], mark ∉ digits) :
    SignedNumber radix digits n ↔
      digits ≠ [] ∧ ∃ m : Nat, natOfDigits radix digits = some m ∧ n = m := by
  constructor
  · rintro ⟨sign, body, m, rfl, hsign, hne, -, hdigits, rfl⟩
    simp only [List.mem_cons, List.not_mem_nil, or_false] at hsign
    rcases hsign with rfl | rfl | rfl
    · rw [List.filter_eq_self.mpr] at hdigits
      · exact ⟨hne, m, hdigits, by simp⟩
      · intro digit hdigit
        simp only [ne_eq, decide_not, Bool.not_eq_true', decide_eq_false_iff_not]
        rintro rfl
        exact hmarks '_' (by simp) hdigit
    · exact absurd (by simp) (hmarks '+' (by simp))
    · exact absurd (by simp) (hmarks '-' (by simp))
  · rintro ⟨hne, m, hdigits, rfl⟩
    exact signedNumber_of_natOfDigits hne hdigits

end Plain

/-! ## What is stripped -/

section Stripped

variable {s : String} {negative hex : Bool} {digits : List Char} {m : Nat} {n : Int}

theorem stripMarker_radix (magnitude : String) :
    (stripMarker magnitude).1 = if (stripStart magnitude "0x").isSome then 16 else 10 := by
  unfold stripMarker
  cases stripStart magnitude "0x" <;> rfl

/-- The text is its sign, its marker and the digits handed to the library. -/
theorem toList_stripped (s : String) :
    s.toList = (if (stripSign s).1 then ['-'] else []) ++
      (if (stripStart (stripSign s).2 "0x").isSome then ['0', 'x'] else []) ++
        (stripMarker (stripSign s).2).2.toList := by
  have hsign : s.toList =
      (if (stripSign s).1 then ['-'] else []) ++ (stripSign s).2.toList := by
    unfold stripSign
    cases h : stripStart s "-" with
    | none => rfl
    | some rest =>
      rw [stripStart_eq_some h, String.toList_append]
      rfl
  have hmarker : ∀ magnitude : String, magnitude.toList =
      (if (stripStart magnitude "0x").isSome then ['0', 'x'] else []) ++
        (stripMarker magnitude).2.toList := by
    intro magnitude
    unfold stripMarker
    cases h : stripStart magnitude "0x" with
    | none => rfl
    | some rest =>
      conv_lhs => rw [stripStart_eq_some h, String.toList_append]
      simp
  rw [List.append_assoc, ← hmarker, ← hsign]

/-- A magnitude is stripped of its marker. -/
theorem stripMarker_eq (hdigits : natOfDigits (if hex then 16 else 10) digits = some m) :
    stripMarker (String.ofList ((if hex then ['0', 'x'] else []) ++ digits)) =
      (if hex then 16 else 10, String.ofList digits) := by
  unfold stripMarker
  cases hex with
  | true =>
    have happend : String.ofList (['0', 'x'] ++ digits) = "0x" ++ String.ofList digits := by
      rw [String.ofList_append]
    simp only [if_true, happend, stripStart_append]
  | false =>
    cases h : stripStart (String.ofList digits) "0x" with
    | none => simp [h]
    | some rest =>
      -- the marker's letter is no decimal digit
      have htext := congrArg String.toList (stripStart_eq_some h)
      rw [String.toList_ofList, String.toList_append] at htext
      have hmem : 'x' ∈ digits := by simp [htext]
      have hx := mem_digits_of_natOfDigits hdigits hmem
      simp [digitIn, hexValue] at hx

/-- A text is stripped of its sign. -/
theorem stripSign_eq (hdigits : natOfDigits (if hex then 16 else 10) digits = some m)
    (htext : s.toList = (if negative then ['-'] else []) ++
      (if hex then ['0', 'x'] else []) ++ digits) :
    stripSign s = (negative, String.ofList ((if hex then ['0', 'x'] else []) ++ digits)) := by
  have hs : s = String.ofList ((if negative then ['-'] else []) ++
      ((if hex then ['0', 'x'] else []) ++ digits)) := by
    rw [← List.append_assoc, ← htext, String.ofList_toList]
  unfold stripSign
  cases negative with
  | true =>
    rw [hs, if_pos rfl, String.ofList_append]
    change (match stripStart ("-" ++ _) "-" with
      | some rest => (true, rest)
      | none => (false, _)) = _
    rw [stripStart_append]
  | false =>
    rw [if_neg Bool.false_ne_true, List.nil_append] at hs
    cases h : stripStart s "-" with
    | none => rw [← hs]
    | some rest =>
      -- the text starts with the marker or with a digit
      have hstart := congrArg String.toList (stripStart_eq_some h)
      rw [hs, String.toList_ofList, String.toList_append] at hstart
      cases hex with
      | true => simp at hstart
      | false =>
        have hmem : '-' ∈ digits := by
          rw [if_neg Bool.false_ne_true, List.nil_append] at hstart
          simp [hstart]
        exact absurd hmem (notMem_of_natOfDigits hdigits '-' (by simp))

/-- An amount is denoted by the digits that are left. -/
theorem denotes_iff :
    Denotes s n ↔ (stripMarker (stripSign s).2).2.toList ≠ [] ∧
      ∃ m : Nat, natOfDigits (stripMarker (stripSign s).2).1
          (stripMarker (stripSign s).2).2.toList = some m ∧
        n = if (stripSign s).1 then -(m : Int) else m := by
  constructor
  · rintro ⟨negative, hex, digits, m, htext, hne, hdigits, rfl⟩
    rw [stripSign_eq hdigits htext]
    dsimp only
    rw [stripMarker_eq hdigits]
    simp only [String.toList_ofList]
    exact ⟨hne, m, hdigits, rfl⟩
  · rintro ⟨hne, m, hdigits, rfl⟩
    rw [stripMarker_radix] at hdigits
    exact ⟨_, _, _, m, toList_stripped s, hne, hdigits, rfl⟩

/-- What is left of a text that denotes an amount has no sign and no underscore. -/
theorem not_decorated_of_denotes (h : Denotes s n) : ¬ Decorated s := by
  obtain ⟨-, m, hdigits, -⟩ := denotes_iff.mp h
  rintro ⟨-, mark, hmark, hmem⟩
  exact notMem_of_natOfDigits hdigits mark hmark hmem

end Stripped

/-! ## Exactness -/

section Lawful

variable [BigIntParser] [LawfulBigIntParser]

theorem fromStr_eq_ok {s : String} {n : Int} :
    fromStr s = .ok n ↔ ∃ value, SignedNumber (stripMarker (stripSign s).2).1
      (stripMarker (stripSign s).2).2.toList value ∧
        n = if (stripSign s).1 then -value else value := by
  have hradix : 1 < (stripMarker (stripSign s).2).1 ∧ (stripMarker (stripSign s).2).1 ≤ 16 := by
    rw [stripMarker_radix]
    split <;> decide
  simp only [fromStr, bind_eq_ok, pure_eq_ok, Except.ok.injEq,
    LawfulBigIntParser.fromStrRadix_eq_ok hradix.1 hradix.2]
  exact exists_congr fun value => and_congr_right' eq_comm

/-- An amount that is denoted is parsed. -/
theorem fromStr_of_denotes {s : String} {n : Int} (h : Denotes s n) : fromStr s = .ok n := by
  obtain ⟨hne, m, hdigits, rfl⟩ := denotes_iff.mp h
  exact fromStr_eq_ok.mpr ⟨m, signedNumber_of_natOfDigits hne hdigits, rfl⟩

omit [BigIntParser] [LawfulBigIntParser] in
theorem denotes_toString (n : Int) : Denotes (toString n) n := by
  refine ⟨decide (n < 0), false, Nat.toDigits 10 n.natAbs, n.natAbs, ?_, Nat.toDigits_ne_nil,
    natOfDigits_toDigits (by decide) (by decide) _, ?_⟩
  · cases n with
    | ofNat m =>
      change (Nat.repr m).toList = _
      simp [Nat.repr]
    | negSucc m =>
      change ("-" ++ Nat.repr (m + 1)).toList = _
      simp [Nat.repr]
  · by_cases hneg : n < 0
    · rw [decide_eq_true hneg, if_pos rfl]
      omega
    · rw [decide_eq_false hneg, if_neg Bool.false_ne_true]
      omega

/-- What an undecorated text is parsed to is what it denotes. -/
theorem parsesExactly_of_not_decorated {s : String} (hplain : ¬ Decorated s) :
    ParsesExactly s := by
  refine fun n => ⟨fun h => ?_, fromStr_of_denotes⟩
  obtain ⟨value, hvalue, rfl⟩ := fromStr_eq_ok.mp h
  have hmarks : ∀ mark ∈ ['+', '-', '_'], mark ∉ (stripMarker (stripSign s).2).2.toList :=
    fun mark hmark hmem => hplain ⟨⟨value, hvalue⟩, mark, hmark, hmem⟩
  obtain ⟨hne, m, hdigits, rfl⟩ := (signedNumber_iff hmarks).mp hvalue
  exact denotes_iff.mpr ⟨hne, m, hdigits, rfl⟩

/-- A decorated text is accepted, but denotes nothing. -/
theorem not_parsesExactly_of_decorated {s : String} (h : Decorated s) : ¬ ParsesExactly s := by
  obtain ⟨value, hvalue⟩ := h.1
  intro hexact
  exact not_decorated_of_denotes ((hexact _).mp (fromStr_eq_ok.mpr ⟨value, hvalue, rfl⟩)) h

/-- **A printed amount is read back, and a text is parsed exactly unless it is decorated.** -/
theorem parsesExactly_iff :
    (∀ n : Int, fromStr (toString n) = .ok n) ∧
      ∀ s, ParsesExactly s ↔ ¬ Decorated s := by
  refine ⟨fun n => fromStr_of_denotes (denotes_toString n), fun s => ⟨?_, ?_⟩⟩
  · exact fun hexact hdecorated => not_parsesExactly_of_decorated hdecorated hexact
  · exact parsesExactly_of_not_decorated

end Lawful

end Amount

/-! ## A parser -/

namespace Reference

/-- A number without a sign. -/
def readMagnitude (radix : Nat) (body : List Char) : Except ParseBigIntError Nat :=
  if body = [] then .error .empty
  else if body.head? = some '_' then .error .invalidDigit
  else (natOfDigits radix (body.filter (· ≠ '_'))).elim (.error .invalidDigit) .ok

def readSigned (radix : Nat) : List Char → Except ParseBigIntError Int
  | '-' :: body => (fun m : Nat => -(m : Int)) <$> readMagnitude radix body
  | '+' :: body => (fun m : Nat => (m : Int)) <$> readMagnitude radix body
  | body => (fun m : Nat => (m : Int)) <$> readMagnitude radix body

scoped instance bigIntParser : BigIntParser := ⟨fun text radix => readSigned radix text.toList⟩

theorem readMagnitude_eq_ok {radix m : Nat} {body : List Char} :
    readMagnitude radix body = .ok m ↔
      body ≠ [] ∧ body.head? ≠ some '_' ∧ natOfDigits radix (body.filter (· ≠ '_')) = some m := by
  unfold readMagnitude
  by_cases hne : body = []
  · simp [hne]
  by_cases hhead : body.head? = some '_'
  · simp [hne, hhead]
  rw [if_neg hne, if_neg hhead]
  cases natOfDigits radix (body.filter (· ≠ '_')) <;> simp [hne, hhead]

/-- A number does not start with a sign. -/
theorem head_ne_sign {radix m : Nat} {body : List Char} {sign : Char}
    (hsign : sign = '-' ∨ sign = '+')
    (h : natOfDigits radix (body.filter (· ≠ '_')) = some m) : body.head? ≠ some sign := by
  intro hhead
  have hmem : sign ∈ body.filter (· ≠ '_') := by
    refine List.mem_filter.mpr ⟨List.mem_of_mem_head? hhead, ?_⟩
    rcases hsign with rfl | rfl <;> decide
  have hmarks := Amount.notMem_of_natOfDigits h sign
  rcases hsign with rfl | rfl <;> exact hmarks (by simp) hmem

theorem readSigned_eq_ok {radix : Nat} {text : List Char} {n : Int} :
    readSigned radix text = .ok n ↔ SignedNumber radix text n := by
  constructor
  · intro h
    unfold readSigned at h
    split at h <;> obtain ⟨m, hm, rfl⟩ := map_eq_ok.mp h <;>
      obtain ⟨hne, hhead, hdigits⟩ := readMagnitude_eq_ok.mp hm
    · exact ⟨['-'], _, m, rfl, by simp, hne, hhead, hdigits, by simp⟩
    · exact ⟨['+'], _, m, rfl, by simp, hne, hhead, hdigits, by simp⟩
    · exact ⟨[], _, m, rfl, by simp, hne, hhead, hdigits, by simp⟩
  · rintro ⟨sign, body, m, rfl, hsign, hne, hhead, hdigits, rfl⟩
    have hm := readMagnitude_eq_ok.mpr ⟨hne, hhead, hdigits⟩
    simp only [List.mem_cons, List.not_mem_nil, or_false] at hsign
    rcases hsign with rfl | rfl | rfl
    · -- without a sign, the first digit is not taken for one
      unfold readSigned
      split <;> rename_i heq
      · exact absurd (congrArg List.head? heq) (head_ne_sign (.inl rfl) hdigits)
      · exact absurd (congrArg List.head? heq) (head_ne_sign (.inr rfl) hdigits)
      · simp [hm]
    · simp [readSigned, hm]
    · simp [readSigned, hm]

scoped instance lawfulBigIntParser : LawfulBigIntParser where
  fromStrRadix_eq_ok _ _ := readSigned_eq_ok

end Reference

section Samples

open scoped Reference

theorem Amount.parsesExactly_iff_sample :
    Amount.fromStr (Amount.toString (-255)) = .ok (-255) ∧ Amount.ParsesExactly "-0xff" := by
  obtain ⟨hprinted, hexact⟩ := Amount.parsesExactly_iff
  have hdenotes : Amount.Denotes "-0xff" (-255) :=
    ⟨true, true, ['f', 'f'], 255, by decide, by decide, by decide, rfl⟩
  exact ⟨hprinted (-255), (hexact "-0xff").mpr (Amount.not_decorated_of_denotes hdenotes)⟩

/-- A second minus sign cancels the first. -/
theorem Amount.not_parsesExactly_doubledSign :
    Amount.fromStr "--5" = .ok 5 ∧ (∀ n, ¬ Amount.Denotes "--5" n) ∧
      ¬ Amount.ParsesExactly "--5" := by
  have hparsed : Amount.fromStr "--5" = .ok 5 := by decide +kernel
  have hnot : ∀ n, ¬ Amount.Denotes "--5" n := by
    intro n h
    obtain ⟨-, m, hdigits, -⟩ := Amount.denotes_iff.mp h
    have hminus : '-' ∈ (Amount.stripMarker (Amount.stripSign "--5").2).2.toList := by
      decide +kernel
    exact Amount.notMem_of_natOfDigits hdigits '-' (by simp) hminus
  exact ⟨hparsed, hnot, fun hexact => hnot 5 ((hexact 5).mp hparsed)⟩

end Samples

end KeetaNode
