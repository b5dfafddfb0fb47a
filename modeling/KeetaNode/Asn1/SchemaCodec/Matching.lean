import KeetaNode.Lib.Positional
import KeetaNode.Asn1.SchemaCodec.Types

/-!
# Structural matching

`matches` and `match_tuple` of `keetanetwork-asn1/src/schema_codec.rs`, and the functions
they share their recursion with. A struct's members are matched by position: up to the
first optional member that may collide with the next one by index, and from there by
trying the member as present and then as absent.

The matcher computes what the greedy search over all the members does
(`matchTuple_refines`), and so it accepts exactly the components that can be assigned to
the members, and prefers the presence of earlier ones (`matchTuple_spec`).
-/

namespace KeetaNode.Asn1.SchemaCodec

open ByteCodec

/-! ## Schema helpers -/

def isOptional : Schema → Bool
  | .optional _ => true
  | _ => false

/-- The inner schema of an optional member, or the schema itself when required. -/
def optionalInner : Schema → Schema
  | .optional inner => inner
  | other => other

@[simp] theorem isOptional_optional (inner : Schema) : isOptional (.optional inner) = true := rfl

@[simp] theorem optionalInner_optional (inner : Schema) :
    optionalInner (.optional inner) = inner := rfl

/-- An optional member's inner schema is smaller. -/
theorem sizeOf_optionalInner_lt {schema : Schema} (h : isOptional schema = true) :
    sizeOf (optionalInner schema) < sizeOf schema := by
  cases schema <;> simp_all [isOptional, optionalInner]

theorem sizeOf_getElem_add_sizeOf_drop {schemas : List Schema} {index : Nat}
    (h : index < schemas.length) :
    sizeOf schemas[index] + sizeOf (schemas.drop (index + 1)) < sizeOf schemas := by
  induction schemas generalizing index with
  | nil => simp at h
  | cons schema schemas ih =>
    cases index with
    | zero => simp
    | succ index =>
      have hlt : index < schemas.length := by simpa using h
      have := ih hlt
      simp only [List.getElem_cons_succ, List.drop_succ_cons, List.cons.sizeOf_spec]
      omega

theorem sizeOf_map_schema_le (fields : List Field) :
    sizeOf (fields.map Field.schema) ≤ sizeOf fields := by
  induction fields with
  | nil => simp
  | cons field fields ih =>
    rcases field with ⟨name, schema⟩
    simp only [List.map_cons, List.cons.sizeOf_spec, Field.mk.sizeOf_spec]
    omega

/-! ## Matching -/

mutual

/-- Whether a value structurally satisfies a schema, `matches` of the source. -/
def matchesSchema (value : Asn1Value) (schema : Schema) : Bool :=
  match schema with
  | .optional inner => matchesSchema value inner
  | .context tag inner => matchesContext value tag inner
  | .choice alternatives =>
    alternatives.attach.any fun ⟨alternative, _⟩ => matchesSchema value alternative
  | .sequenceOf inner => matchesSequenceOf value inner
  | .struct fields => matchesStruct value fields
  | .utf8 => match value with | .str _ => true | _ => false
  | .oid => match value with | .oid _ => true | _ => false
  | .octetString => match value with | .octets _ => true | _ => false
  | .date => match value with | .date _ => true | _ => false
termination_by (sizeOf schema, 0, 0)

def matchesContext (value : Asn1Value) (tag : UInt8) (inner : Schema) : Bool :=
  match value with
  | .context actual contains => if actual = tag then matchesSchema contains inner else false
  | _ => false
termination_by (sizeOf inner, 1, 0)

def matchesSequenceOf (value : Asn1Value) (inner : Schema) : Bool :=
  match value with
  | .seq items => items.all fun item => matchesSchema item inner
  | _ => false
termination_by (sizeOf inner, 1, 0)

def matchesStruct (value : Asn1Value) (fields : List Field) : Bool :=
  match value with
  | .seq components => (matchTuple components (fields.map Field.schema)).isOk
  | _ => false
termination_by (sizeOf fields, 4, 0)
decreasing_by
  have := sizeOf_map_schema_le fields
  rcases this.lt_or_eq with h | h <;> simp [Prod.lex_def] <;> omega

/-- Match components against an ordered list of member schemas: what each member holds. -/
def matchTuple (components : List Asn1Value) (schemas : List Schema) :
    Except SchemaCodecError (List (Option Asn1Value)) := do
  let required := (schemas.filter fun schema => !isOptional schema).length
  rejectIf (components.length < required ∨ components.length > schemas.length)
    SchemaCodecError.componentCountOutOfBounds
  let out ← matchMembers components schemas 0 []
  return trimAbsent out
termination_by (sizeOf schemas, 3, 0)

/-- The loop over the members from `index` on. -/
def matchMembers (components : List Asn1Value) (schemas : List Schema) (index : Nat)
    (out : List (Option Asn1Value)) : Except SchemaCodecError (List (Option Asn1Value)) :=
  if h : index < schemas.length then
    -- an optional member that is neither last nor past the input can collide with the next
    if hambiguous : isOptional schemas[index] = true ∧ index < schemas.length - 1 ∧
        index < components.length then do
      let resolved ← resolveAmbiguousOptional components schemas index h hambiguous.1
      return out ++ resolved
    else do
      let component := components[index]?
      let slot ← againstOne component schemas[index]
      matchMembers components schemas (index + 1) (out ++ [slot])
  else return out
termination_by (sizeOf schemas, 2, schemas.length - index)
decreasing_by
  · decreasing_tactic
  · have := sizeOf_getElem_add_sizeOf_drop h
    exact Prod.Lex.left _ _ (by omega)
  · decreasing_tactic

/-- Try the current component as this member, and else the member as absent. -/
def resolveAmbiguousOptional (components : List Asn1Value) (schemas : List Schema) (index : Nat)
    (h : index < schemas.length) (_hopt : isOptional schemas[index] = true) :
    Except SchemaCodecError (List (Option Asn1Value)) :=
  let remaining := schemas.drop (index + 1)
  let head := components.drop index
  let present := optionalInner schemas[index] :: remaining
  match matchTuple head present with
  | .ok matched => return matched
  | .error _ => do
    let matched ← matchTuple head remaining
    return none :: matched
termination_by (sizeOf schemas, 1, 0)
decreasing_by
  · have := sizeOf_getElem_add_sizeOf_drop h
    have := sizeOf_optionalInner_lt _hopt
    exact Prod.Lex.left _ _ (by simp only [List.cons.sizeOf_spec]; omega)
  · have := sizeOf_getElem_add_sizeOf_drop h
    exact Prod.Lex.left _ _ (by omega)

def againstOne (component : Option Asn1Value) (schema : Schema) :
    Except SchemaCodecError (Option Asn1Value) :=
  match component with
  | none => if isOptional schema then return none else throw .schemaMismatch
  | some value => if matchesSchema value schema then return some value else throw .schemaMismatch
termination_by (sizeOf schema, 1, 0)

end

/-! ## The matcher finds the preferred assignment -/

section

variable {components : List Asn1Value} {schemas : List Schema} {index : Nat}

/-- What the matcher computes: the preferred assignment without the absent members at its
end. -/
def TupleRefines (components : List Asn1Value) (schemas : List Schema) : Prop :=
  (matchTuple components schemas).toOption =
    (leftmost matchesSchema isOptional components schemas).map trimAbsent

theorem matchesSchema_optional (value : Asn1Value) (inner : Schema) :
    matchesSchema value (.optional inner) = matchesSchema value inner := by
  conv_lhs => rw [matchesSchema.eq_def]

theorem eq_optional {schema : Schema} (h : isOptional schema = true) :
    schema = .optional (optionalInner schema) := by
  cases schema <;> simp_all [isOptional, optionalInner]

theorem resolveAmbiguousOptional_toOption (h : index < schemas.length)
    (hopt : isOptional schemas[index] = true) :
    (resolveAmbiguousOptional components schemas index h hopt).toOption =
      (matchTuple (components.drop index)
          (optionalInner schemas[index] :: schemas.drop (index + 1))).toOption.or
        ((matchTuple (components.drop index) (schemas.drop (index + 1))).toOption.map
          (none :: ·)) := by
  rw [resolveAmbiguousOptional.eq_def]
  dsimp only
  cases matchTuple (components.drop index)
      (optionalInner schemas[index] :: schemas.drop (index + 1)) with
  | ok matched => rfl
  | error =>
    cases matchTuple (components.drop index) (schemas.drop (index + 1)) <;> rfl

theorem againstOne_toOption_none (schema : Schema) :
    (againstOne none schema).toOption = if isOptional schema then some none else none := by
  rw [againstOne.eq_def]
  cases isOptional schema <;> rfl

theorem againstOne_toOption_some (value : Asn1Value) (schema : Schema) :
    (againstOne (some value) schema).toOption =
      if matchesSchema value schema then some (some value) else none := by
  rw [againstOne.eq_def]
  cases h : matchesSchema value schema <;> simp [h] <;> rfl

/-- Taking the member as filled first and as absent next is what the greedy search does
with an optional member. -/
theorem resolveAmbiguousOptional_refines (h : index < schemas.length)
    (hopt : isOptional schemas[index] = true) (hcomp : index < components.length)
    (hpresent : TupleRefines (components.drop index)
      (optionalInner schemas[index] :: schemas.drop (index + 1)))
    (habsent : TupleRefines (components.drop index) (schemas.drop (index + 1))) :
    (resolveAmbiguousOptional components schemas index h hopt).toOption.map trimAbsent =
      (leftmost matchesSchema isOptional (components.drop index) (schemas.drop index)).map
        trimAbsent := by
  unfold TupleRefines at hpresent habsent
  rw [resolveAmbiguousOptional_toOption, hpresent, habsent, List.drop_eq_getElem_cons h,
    List.drop_eq_getElem_cons hcomp, leftmost, leftmost]
  generalize schemas[index] = schema at hopt ⊢
  obtain ⟨inner, rfl⟩ : ∃ inner, schema = .optional inner := ⟨_, eq_optional hopt⟩
  rw [optionalInner_optional, matchesSchema_optional, isOptional_optional, if_pos rfl]
  exact map_trimAbsent_orElse _ _ _

theorem matchMembers_done (out : List (Option Asn1Value)) (h : ¬ index < schemas.length) :
    matchMembers components schemas index out = .ok out := by
  rw [matchMembers.eq_def, dif_neg h]
  rfl

/-- One turn of the loop over an ambiguous optional member, which ends it. -/
theorem matchMembers_ambiguous (out : List (Option Asn1Value)) (h : index < schemas.length)
    (hambiguous : isOptional schemas[index] = true ∧ index < schemas.length - 1 ∧
      index < components.length) :
    (matchMembers components schemas index out).toOption =
      (resolveAmbiguousOptional components schemas index h hambiguous.1).toOption.map
        (out ++ ·) := by
  rw [matchMembers.eq_def, dif_pos h, dif_pos hambiguous]
  cases resolveAmbiguousOptional components schemas index h hambiguous.1 <;> rfl

/-- One turn of the loop over any other member. -/
theorem matchMembers_next (out : List (Option Asn1Value)) (h : index < schemas.length)
    (hambiguous : ¬ (isOptional schemas[index] = true ∧ index < schemas.length - 1 ∧
      index < components.length)) :
    (matchMembers components schemas index out).toOption =
      (againstOne components[index]? schemas[index]).toOption.bind fun slot =>
        (matchMembers components schemas (index + 1) (out ++ [slot])).toOption := by
  rw [matchMembers.eq_def, dif_pos h, dif_neg hambiguous]
  dsimp only
  cases againstOne components[index]? schemas[index] <;> rfl

/-- Up to the first ambiguous optional member, the component at an index belongs to the
member at that index. -/
theorem matchMembers_refines (out : List (Option Asn1Value))
    (hsmaller : ∀ cs ss, sizeOf ss < sizeOf schemas → TupleRefines cs ss)
    (hcount : components.length ≤ schemas.length) (hindex : index ≤ schemas.length) :
    (matchMembers components schemas index out).toOption.map trimAbsent =
      (leftmost matchesSchema isOptional (components.drop index) (schemas.drop index)).map
        fun rest => trimAbsent (out ++ rest) := by
  induction hn : schemas.length - index generalizing index out with
  | zero =>
    rw [matchMembers_done out (by omega), List.drop_eq_nil_of_le (by omega),
      List.drop_eq_nil_of_le (by omega)]
    simp [leftmost, Except.toOption]
  | succ n ih =>
    have h : index < schemas.length := by omega
    by_cases hambiguous : isOptional schemas[index] = true ∧ index < schemas.length - 1 ∧
        index < components.length
    · have hdrop := sizeOf_getElem_add_sizeOf_drop h
      have hinner := sizeOf_optionalInner_lt hambiguous.1
      have hresolve := resolveAmbiguousOptional_refines h hambiguous.1 hambiguous.2.2
        (hsmaller _ _ (by simp only [List.cons.sizeOf_spec]; omega)) (hsmaller _ _ (by omega))
      rw [matchMembers_ambiguous out h hambiguous, map_trimAbsent_append, hresolve,
        ← map_trimAbsent_append, Option.map_map]
      rfl
    · rw [matchMembers_next out h hambiguous, List.drop_eq_getElem_cons h]
      have hrest := fun slot => @ih (index + 1) (out ++ [slot]) (by omega) (by omega)
      simp only [List.append_assoc, List.singleton_append] at hrest
      cases hcomponent : components[index]? with
      | none =>
        -- past the input every member has to be optional
        have hend : components.length ≤ index := List.getElem?_eq_none_iff.mp hcomponent
        rw [List.drop_eq_nil_of_le hend, leftmost, againstOne_toOption_none]
        cases isOptional schemas[index] with
        | false => rfl
        | true =>
          have hrest := hrest none
          rw [List.drop_eq_nil_of_le (by omega)] at hrest
          simp only [if_true, Option.bind_some, Option.map_map]
          exact hrest
      | some component =>
        obtain ⟨hlt, rfl⟩ := List.getElem?_eq_some_iff.mp hcomponent
        -- a member that is last is the only place for the only component that is left
        have habsent : (if isOptional schemas[index] = true then
            (leftmost matchesSchema isOptional
              (components[index] :: components.drop (index + 1)) (schemas.drop (index + 1))).map
              (none :: ·) else none) = none := by
          split
          · rename_i hopt
            have hlast : schemas.length ≤ index + 1 := by
              by_contra hnot
              exact hambiguous ⟨hopt, by omega, hlt⟩
            rw [List.drop_eq_nil_of_le hlast]
            rfl
          · rfl
        rw [List.drop_eq_getElem_cons hlt, leftmost, habsent, againstOne_toOption_some]
        cases matchesSchema components[index] schemas[index] with
        | false => rfl
        | true =>
          simp only [if_true, Option.bind_some, Option.or_none, Option.map_map]
          exact hrest (some components[index])

theorem matchTuple_toOption (components : List Asn1Value) (schemas : List Schema) :
    (matchTuple components schemas).toOption =
      if components.length < (schemas.filter fun schema => !isOptional schema).length ∨
          components.length > schemas.length then none
      else (matchMembers components schemas 0 []).toOption.map trimAbsent := by
  rw [matchTuple.eq_def]
  unfold rejectIf
  dsimp only
  split_ifs with hcount
  · rfl
  · cases matchMembers components schemas 0 [] <;> rfl

/-- The matcher refines the greedy search. -/
theorem matchTuple_refines (components : List Asn1Value) (schemas : List Schema) :
    TupleRefines components schemas := by
  induction hsize : sizeOf schemas using Nat.strong_induction_on
    generalizing components schemas with
  | _ size ih =>
    unfold TupleRefines
    rw [matchTuple_toOption]
    split_ifs with hcount
    · -- no assignment has so few or so many components
      rw [leftmost_eq_none.mpr, Option.map_none]
      intro out hout
      have hle := hout.length_le
      have hreq : schemas.countP (fun schema => !isOptional schema) ≤ components.length :=
        hout.countP_le (by simp)
      rw [List.countP_eq_length_filter] at hreq
      omega
    · rw [matchMembers_refines [] (fun cs ss hss => ih _ (hsize ▸ hss) cs ss rfl) (by omega)
        (Nat.zero_le _)]
      rfl

end

/-! ## What a value that matches looks like -/

/-- A value of a schema's shape. The components of a struct can be assigned to its
members. -/
inductive Conforms : Asn1Value → Schema → Prop where
  | utf8 (text : String) : Conforms (.str text) .utf8
  | oid (oid : String) : Conforms (.oid oid) .oid
  | octetString (bytes : Bytes) : Conforms (.octets bytes) .octetString
  | date (time : Asn1Time) : Conforms (.date time) .date
  | context {tag contains inner} : Conforms contains inner →
      Conforms (.context tag contains) (.context tag inner)
  | optional {value inner} : Conforms value inner → Conforms value (.optional inner)
  | choice {value alternatives alternative} : alternative ∈ alternatives →
      Conforms value alternative → Conforms value (.choice alternatives)
  | sequenceOf {items inner} : (∀ item ∈ items, Conforms item inner) →
      Conforms (.seq items) (.sequenceOf inner)
  | struct {components fields out} :
      Assigns Conforms isOptional components (fields.map Field.schema) out →
      Conforms (.seq components) (.struct fields)

section

variable {value : Asn1Value} {tag : UInt8} {inner : Schema} {alternatives : List Schema}
  {fields : List Field}

theorem conforms_optional : Conforms value (.optional inner) ↔ Conforms value inner :=
  ⟨fun h => by cases h; assumption, .optional⟩

theorem conforms_context :
    Conforms value (.context tag inner) ↔
      ∃ contains, value = .context tag contains ∧ Conforms contains inner := by
  constructor
  · rintro (_ | h)
    exact ⟨_, rfl, by assumption⟩
  · rintro ⟨contains, rfl, h⟩
    exact .context h

theorem conforms_choice :
    Conforms value (.choice alternatives) ↔
      ∃ alternative ∈ alternatives, Conforms value alternative := by
  constructor
  · intro h
    cases h with
    | choice hmem h => exact ⟨_, hmem, h⟩
  · rintro ⟨alternative, hmem, h⟩
    exact .choice hmem h

theorem conforms_sequenceOf :
    Conforms value (.sequenceOf inner) ↔
      ∃ items, value = .seq items ∧ ∀ item ∈ items, Conforms item inner := by
  constructor
  · intro h
    cases h with
    | sequenceOf h => exact ⟨_, rfl, h⟩
  · rintro ⟨items, rfl, h⟩
    exact .sequenceOf h

theorem conforms_struct :
    Conforms value (.struct fields) ↔
      ∃ components, value = .seq components ∧
        ∃ out, Assigns Conforms isOptional components (fields.map Field.schema) out := by
  constructor
  · intro h
    cases h with
    | struct h => exact ⟨_, rfl, _, h⟩
  · rintro ⟨components, rfl, out, h⟩
    exact .struct h

/-! The same equations for the matching predicate, schema by schema. -/

theorem matchesSchema_context :
    matchesSchema value (.context tag inner) = true ↔
      ∃ contains, value = .context tag contains ∧ matchesSchema contains inner = true := by
  rw [matchesSchema.eq_def]
  dsimp only
  rw [matchesContext.eq_def]
  cases value <;> simp

theorem matchesSchema_choice :
    matchesSchema value (.choice alternatives) = true ↔
      ∃ alternative ∈ alternatives, matchesSchema value alternative = true := by
  rw [matchesSchema.eq_def]
  simp

theorem matchesSchema_sequenceOf :
    matchesSchema value (.sequenceOf inner) = true ↔
      ∃ items, value = .seq items ∧ ∀ item ∈ items, matchesSchema item inner = true := by
  rw [matchesSchema.eq_def]
  dsimp only
  rw [matchesSequenceOf.eq_def]
  cases value <;> simp

theorem matchTuple_isOk (components : List Asn1Value) (schemas : List Schema) :
    (matchTuple components schemas).isOk = true ↔
      ∃ out, Assigns (matchesSchema · ·) isOptional components schemas out := by
  have hisOk : (matchTuple components schemas).isOk =
      (matchTuple components schemas).toOption.isSome := by
    cases matchTuple components schemas <;> rfl
  rw [hisOk, matchTuple_refines, Option.isSome_map]
  rcases leftmost_findsPreferred matchesSchema isOptional components schemas with
    ⟨best, heq, hbest⟩ | ⟨heq, hnone⟩
  · rw [heq]
    exact ⟨fun _ => ⟨best, hbest.1⟩, fun _ => rfl⟩
  · rw [heq]
    exact ⟨fun h => (nomatch h), fun ⟨out, hout⟩ => absurd hout (hnone out)⟩

theorem matchesSchema_struct :
    matchesSchema value (.struct fields) = true ↔
      ∃ components, value = .seq components ∧
        ∃ out, Assigns (matchesSchema · ·) isOptional components (fields.map Field.schema)
          out := by
  rw [matchesSchema.eq_def]
  dsimp only
  rw [matchesStruct.eq_def]
  cases value <;> simp [matchTuple_isOk]

end

/-- The matching predicate holds for the values of the schema's shape. The induction is on
the size of the schema, as the members of a struct are matched together. -/
theorem matchesSchema_iff (value : Asn1Value) (schema : Schema) :
    matchesSchema value schema = true ↔ Conforms value schema := by
  induction hsize : sizeOf schema using Nat.strong_induction_on
    generalizing value schema with
  | _ size ih =>
    subst hsize
    have hsmaller : ∀ other, sizeOf other < sizeOf schema → ∀ value,
        (matchesSchema value other = true ↔ Conforms value other) :=
      fun other hlt value => ih _ hlt value other rfl
    cases schema with
    | utf8 | oid | octetString | date =>
      rw [matchesSchema.eq_def]
      constructor
      · intro h
        cases value <;> first | constructor | nomatch h
      · intro h
        cases h
        rfl
    | optional inner =>
      rw [matchesSchema_optional, conforms_optional, hsmaller inner (by simp)]
    | context tag inner =>
      simp only [matchesSchema_context, conforms_context, hsmaller inner (by simp)]
    | choice alternatives =>
      rw [matchesSchema_choice, conforms_choice]
      have hlt : ∀ alternative ∈ alternatives,
          sizeOf alternative < sizeOf (Schema.choice alternatives) := fun alternative hmem =>
        (List.sizeOf_lt_of_mem hmem).trans (by simp)
      exact ⟨fun ⟨a, hmem, h⟩ => ⟨a, hmem, (hsmaller a (hlt a hmem) value).mp h⟩,
        fun ⟨a, hmem, h⟩ => ⟨a, hmem, (hsmaller a (hlt a hmem) value).mpr h⟩⟩
    | sequenceOf inner =>
      simp only [matchesSchema_sequenceOf, conforms_sequenceOf, hsmaller inner (by simp)]
    | struct fields =>
      rw [matchesSchema_struct, conforms_struct]
      -- both assign the components in the same way, so that the members may be exchanged
      have hlt : ∀ member ∈ fields.map Field.schema,
          sizeOf member < sizeOf (Schema.struct fields) := fun member hmem =>
        (List.sizeOf_lt_of_mem hmem).trans_le ((sizeOf_map_schema_le fields).trans (by simp))
      constructor
      · rintro ⟨components, hvalue, out, hout⟩
        exact ⟨components, hvalue, out,
          hout.mono fun c s hs => (hsmaller s (hlt s hs) c).mp⟩
      · rintro ⟨components, hvalue, out, hout⟩
        exact ⟨components, hvalue, out,
          hout.mono fun c s hs => (hsmaller s (hlt s hs) c).mpr⟩

theorem conforms_eq : (fun value schema => matchesSchema value schema = true) = Conforms := by
  funext value schema
  exact propext (matchesSchema_iff value schema)

/-- The tuple matcher accepts exactly the components that can be assigned to the members,
and returns the preferred assignment, with the absent members at its end cut off. It is
defined for all inputs, as each attempt is on a smaller list of schemas. -/
theorem matchTuple_spec (components : List Asn1Value) (schemas : List Schema) :
    ((∃ out, matchTuple components schemas = .ok out) ↔
      ∃ assignment, Assigns Conforms isOptional components schemas assignment) ∧
    ∀ out, matchTuple components schemas = .ok out ↔
      ∃ assignment, Preferred Conforms isOptional components schemas assignment ∧
        out = trimAbsent assignment := by
  have hok : ∀ out, matchTuple components schemas = .ok out ↔
      ∃ assignment, Preferred Conforms isOptional components schemas assignment ∧
        out = trimAbsent assignment := by
    intro out
    -- the search is compared with the direct one up to the text of an error
    have hoption : matchTuple components schemas = .ok out ↔
        (matchTuple components schemas).toOption = some out := by
      cases matchTuple components schemas <;> simp [Except.toOption]
    rw [hoption, matchTuple_refines, Option.map_eq_some_iff]
    simp only [leftmost_eq_some, conforms_eq, eq_comm (a := out)]
  refine ⟨⟨fun ⟨out, hout⟩ => ?_, fun ⟨assignment, hassign⟩ => ?_⟩, hok⟩
  · obtain ⟨assignment, hbest, -⟩ := (hok out).mp hout
    exact ⟨assignment, hbest.1⟩
  · rw [← conforms_eq] at hassign
    have hisOk := (matchTuple_isOk components schemas).mpr ⟨assignment, hassign⟩
    cases hmatch : matchTuple components schemas with
    | ok out => exact ⟨out, rfl⟩
    | error e => rw [hmatch] at hisOk; nomatch hisOk

end KeetaNode.Asn1.SchemaCodec
