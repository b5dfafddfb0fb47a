import KeetaNode.Lib.Reader

/-!
# Tag-length-value primitives

The elementary writer and reader of a tag-length-value encoding, as a class over
the type of tags and the type of errors, with the laws that make the two inverse
to each other as a separate class of propositions. Everything below is generic in
both, so that a codec built on the primitives is verified once for every lawful
implementation of them.

## Main results

- `reads_readAny`: an element that was written is read back, whatever follows
- `HeadTag`, `optionalTag_some`, `optionalTag_none`: an optional field recognised
  by its tag is told apart from the field that follows it
- `appendEach_eq_ok`: a loop that appends one element per item produces the
  concatenation of the elements
-/

namespace ByteCodec

/-- Identifier octets of a type of tags. -/
class TagOctet (Tag : Type) where
  octet : Tag → UInt8

/-- The primitives of a tag-length-value encoding. -/
class Tlv (Tag : outParam Type) (ε : Type) where
  /-- Write one element; fails when the content is too long. -/
  encodeTlv : Tag → Bytes → Except ε Bytes
  /-- Read one element from the front of the input. -/
  decodeTlv : Bytes → Except ε ((Tag × Bytes) × Bytes)
  /-- The tag of the element at the front of the input. -/
  peekTag : Bytes → Except ε Tag
  /-- Open a reader on a byte string; fails when it is too long. -/
  openSlice : Bytes → Except ε Unit

export Tlv (encodeTlv decodeTlv openSlice)

/-- The laws of the primitives: writer and reader are mutually inverse. -/
class LawfulTlv (Tag : outParam Type) (ε : Type) [TagOctet Tag] [Tlv Tag ε] : Prop where
  decode_encode {t : Tag} {v b : Bytes} (rest : Bytes) :
    encodeTlv (ε := ε) t v = .ok b → decodeTlv (ε := ε) (b ++ rest) = .ok ((t, v), rest)
  encode_decode {t : Tag} {v input rest : Bytes} :
    decodeTlv (ε := ε) input = .ok ((t, v), rest) →
      ∃ b, encodeTlv (ε := ε) t v = .ok b ∧ input = b ++ rest
  peek_encode {t : Tag} {v b : Bytes} (rest : Bytes) :
    encodeTlv (ε := ε) t v = .ok b → Tlv.peekTag (ε := ε) (b ++ rest) = .ok t
  head_encode {t : Tag} {v b : Bytes} :
    encodeTlv (ε := ε) t v = .ok b → b.head? = some (TagOctet.octet t)
  length_encode {t : Tag} {v b : Bytes} :
    encodeTlv (ε := ε) t v = .ok b → v.length < b.length
  open_content {t : Tag} {v b : Bytes} :
    encodeTlv (ε := ε) t v = .ok b → openSlice (ε := ε) v = .ok ()
  open_encoded {t : Tag} {v b : Bytes} :
    encodeTlv (ε := ε) t v = .ok b → openSlice (ε := ε) b = .ok ()

variable {Tag ε α : Type}

/-! ## Readers over the primitives -/

section Readers

variable [Tlv Tag ε]

/-- Read any element. -/
def readAny : Reader ε (Tag × Bytes) := fun input => decodeTlv input

/-- Look at the tag of the next element without consuming it. -/
def peekTag : Reader ε Tag := fun input => do
  return (← Tlv.peekTag input, input)

/-- Run `body` over a fresh reader on `content`. -/
def within (content : Bytes) (body : Reader ε α) : Except ε α := do
  openSlice content
  let (a, _) ← body.run content
  return a

/-- Run `body` over a fresh reader on `content`; opening fails with `e`. -/
def withinOr (content : Bytes) (e : ε) (body : Reader ε α) : Except ε α := do
  match openSlice (ε := ε) content with
  | .error _ => .error e
  | .ok () =>
    let (a, _) ← body.run content
    return a

/-- The tag of the next element, found by reading the whole element. -/
def probeTag : Reader ε Tag := fun input => do
  let ((tag, _), _) ← decodeTlv input
  return (tag, input)

/-- Read an element with the tag `t` and return its own encoding. -/
def captureTlv [DecidableEq Tag] (t : Tag) (unexpected : Tag → ε) : Reader ε Bytes := do
  let (tag, content) ← readAny
  rejectIf (tag ≠ t) (unexpected tag)
  encodeTlv (ε := ε) tag content

/-- The number of elements in the input. -/
def countElements (e : ε) : Reader ε Nat :=
  whileUnfinished (fun count => do
    let _ ← orError readAny e
    return count + 1) 0

/-- A field that is present exactly when the next tag is `t`. -/
def optionalTag [DecidableEq Tag] (t : Tag) (r : Reader ε α) : Reader ε (Option α) := do
  if (← peekTag) = t then return some (← r) else return none

/-- A last field that is present exactly when input remains. -/
def optionalRest (r : Reader ε α) : Reader ε (Option α) := do
  if (← isFinished) then return none else return some (← r)

end Readers

theorem peekTag_run_eq_ok [Tlv Tag ε] {t : Tag} {input rest : Bytes}
    (h : (peekTag (ε := ε)).run input = .ok (t, rest)) : rest = input := by
  obtain ⟨_, -, h⟩ := bind_eq_ok.mp h
  exact (congrArg Prod.snd (Except.ok.inj h)).symm

/-! ## Writers -/

/-- Append an element when the value is present. -/
def appendOptional (write : Bytes → α → Except ε Bytes) (out : Bytes) :
    Option α → Except ε Bytes
  | none => .ok out
  | some a => write out a

/-- Append one element per item of a list. -/
def appendEach (write : Bytes → α → Except ε Bytes) (out : Bytes) (items : List α) :
    Except ε Bytes :=
  items.foldlM write out

/-- `write` only appends, and what it appends for `a` satisfies `P a`. -/
def Appends (write : Bytes → α → Except ε Bytes) (P : α → Bytes → Prop) : Prop :=
  ∀ out a out', write out a = .ok out' → ∃ b, out' = out ++ b ∧ P a b

/-- A writer that starts from nothing. -/
theorem Appends.nil {write : Bytes → α → Except ε Bytes} {P : α → Bytes → Prop}
    (hw : Appends write P) {a : α} {out : Bytes} (h : write [] a = .ok out) : P a out := by
  obtain ⟨b, rfl, hb⟩ := hw _ _ _ h
  exact hb

theorem appendEach_eq_ok {write : Bytes → α → Except ε Bytes} {P : α → Bytes → Prop}
    (hw : Appends write P) {out out' : Bytes} {items : List α}
    (h : appendEach write out items = .ok out') :
    ∃ bs, out' = out ++ bs.flatten ∧ List.Forall₂ P items bs := by
  unfold appendEach at h
  induction items generalizing out with
  | nil =>
    refine ⟨[], ?_, .nil⟩
    simpa [eq_comm] using h
  | cons a items ih =>
    obtain ⟨mid, hmid, hrest⟩ := foldlM_cons_eq_ok.mp h
    obtain ⟨b, rfl, hb⟩ := hw _ _ _ hmid
    obtain ⟨bs, rfl, hbs⟩ := ih hrest
    exact ⟨b :: bs, by simp, .cons hb hbs⟩

/-- A writer that appends given bytes for each item appends their concatenation. -/
theorem appendEach_of_forall₂ {write : Bytes → α → Except ε Bytes} {P : α → Bytes → Prop}
    (hw : ∀ out a b, P a b → write out a = .ok (out ++ b)) {items : List α} {bs : List Bytes}
    (h : List.Forall₂ P items bs) :
    ∀ out, appendEach write out items = .ok (out ++ bs.flatten) := by
  unfold appendEach
  induction h with
  | nil =>
    intro out
    simp
  | @cons a b items bs hab _ ih =>
    intro out
    rw [List.foldlM_cons, hw out a b hab, ok_bind, ih, List.flatten_cons, List.append_assoc]

/-- A loop that appends a separately encoded element per item. -/
theorem appendEncoded_appends {encode : α → Except ε Bytes} {P : α → Bytes → Prop}
    (h : ∀ a b, encode a = .ok b → P a b) :
    Appends (fun out a => do return out ++ (← encode a)) P := by
  intro out a out' hout
  obtain ⟨b, hb, hout⟩ := bind_eq_ok.mp hout
  rw [pure_eq_ok, Except.ok.injEq] at hout
  exact ⟨b, hout.symm, h a b hb⟩

/-! ## Laws of the readers -/

section Lawful

variable [TagOctet Tag] [Tlv Tag ε] [LawfulTlv Tag ε] {t : Tag} {v b : Bytes}

theorem encodeTlv_ne_nil (h : encodeTlv (ε := ε) t v = .ok b) : b ≠ [] := by
  rintro rfl
  simpa using LawfulTlv.head_encode h

theorem reads_readAny (h : encodeTlv (ε := ε) t v = .ok b) :
    Reads (readAny (ε := ε)) b (t, v) :=
  fun rest => LawfulTlv.decode_encode rest h

theorem reads_captureTlv [DecidableEq Tag] (h : encodeTlv (ε := ε) t v = .ok b)
    (unexpected : Tag → ε) : Reads (captureTlv t unexpected) b b :=
  (reads_readAny h).bind_nil ((reads_lift (rejectIf_neg (by simp))).bind_nil (reads_lift h))

theorem probeTag_run_bind {β : Type} (h : encodeTlv (ε := ε) t v = .ok b) (f : Tag → Reader ε β)
    (rest : Bytes) : (probeTag >>= f).run (b ++ rest) = (f t).run (b ++ rest) := by
  have hprobe : (probeTag (ε := ε)).run (b ++ rest) = .ok (t, b ++ rest) := by
    simp [probeTag, StateT.run, LawfulTlv.decode_encode rest h]
  rw [StateT.run_bind, hprobe, ok_bind]

/-- Elements written one after another are counted. -/
theorem countElements_readsAll (bs : List Bytes) (e : ε)
    (h : ∀ b ∈ bs, ∃ t v, encodeTlv (ε := ε) t v = .ok b) :
    ReadsAll (countElements (ε := ε) e) bs.flatten bs.length := by
  have rounds : ∀ n, Rounds (fun count => do let _ ← orError (readAny (ε := ε)) e; return count + 1)
      n bs (n + bs.length) := by
    induction bs with
    | nil => exact fun n => .nil n
    | cons b bs ih =>
      intro n
      obtain ⟨t, v, hb⟩ := h b (by simp)
      have hrest := ih (fun b hb => h b (by simp [hb])) (n + 1)
      rw [List.length_cons, show n + (bs.length + 1) = n + 1 + bs.length by omega]
      exact .cons (encodeTlv_ne_nil hb) (((reads_readAny hb).orError e).bind_pure _) hrest
  have := (rounds 0).readsAll
  rwa [Nat.zero_add] at this

theorem within_eq_ok {body : Reader ε α} {a : α} (h : encodeTlv (ε := ε) t v = .ok b)
    (hbody : ReadsAll body v a) : within v body = .ok a := by
  unfold within
  rw [LawfulTlv.open_content h, ok_bind, hbody]
  rfl

theorem withinOr_eq_ok {body : Reader ε α} {a : α} (h : encodeTlv (ε := ε) t v = .ok b) (e : ε)
    (hbody : ReadsAll body v a) : withinOr v e body = .ok a := by
  unfold withinOr
  rw [LawfulTlv.open_content h, hbody]
  rfl

theorem withinOr_encoded_eq_ok {body : Reader ε α} {a : α} (h : encodeTlv (ε := ε) t v = .ok b)
    (e : ε) (hbody : ReadsAll body b a) : withinOr b e body = .ok a := by
  unfold withinOr
  rw [LawfulTlv.open_encoded h, hbody]
  rfl

omit [TagOctet Tag] [LawfulTlv Tag ε] in
theorem run_of_within_eq_ok {content : Bytes} {body : Reader ε α} {a : α}
    (h : within content body = .ok a) : ∃ rest, body.run content = .ok (a, rest) := by
  obtain ⟨_, -, h⟩ := bind_eq_ok.mp h
  obtain ⟨⟨a', rest⟩, hrun, h⟩ := bind_eq_ok.mp h
  have : a' = a := by simpa using h
  exact ⟨rest, this ▸ hrun⟩

omit [TagOctet Tag] [LawfulTlv Tag ε] in
theorem run_of_withinOr_eq_ok {content : Bytes} {e : ε} {body : Reader ε α} {a : α}
    (h : withinOr content e body = .ok a) : ∃ rest, body.run content = .ok (a, rest) := by
  unfold withinOr at h
  split at h
  · cases h
  · obtain ⟨⟨a', rest⟩, hrun, h⟩ := bind_eq_ok.mp h
    have : a' = a := by simpa using h
    exact ⟨rest, this ▸ hrun⟩

theorem within_encoded_eq_ok {body : Reader ε α} {a : α} (h : encodeTlv (ε := ε) t v = .ok b)
    (hbody : ReadsAll body b a) : within b body = .ok a := by
  unfold within
  rw [LawfulTlv.open_encoded h, ok_bind, hbody]
  rfl

end Lawful

/-! ## Optional fields -/

section Optional

variable [Tlv Tag ε]

/-- The bytes `b` start with an element tagged `t`. -/
def HeadTag (ε : Type) [Tlv Tag ε] (t : Tag) (b : Bytes) : Prop :=
  ∀ rest, Tlv.peekTag (ε := ε) (b ++ rest) = .ok t

theorem headTag_encodeTlv [TagOctet Tag] [LawfulTlv Tag ε] {t : Tag} {v b : Bytes}
    (h : encodeTlv (ε := ε) t v = .ok b) : HeadTag ε t b :=
  fun rest => LawfulTlv.peek_encode rest h

theorem HeadTag.append {t : Tag} {b : Bytes} (h : HeadTag ε t b) (c : Bytes) :
    HeadTag ε t (b ++ c) := by
  intro rest
  rw [List.append_assoc]
  exact h _

theorem HeadTag.run {t : Tag} {b : Bytes} (h : HeadTag ε t b) :
    (peekTag (ε := ε)).run b = .ok (t, b) := by
  have := h []
  rw [List.append_nil] at this
  simp [peekTag, StateT.run, this]

/-- A peek hands the tag over and leaves the input as it is. -/
theorem HeadTag.run_bind {β : Type} {t : Tag} {b : Bytes} (h : HeadTag ε t b)
    (f : Tag → Reader ε β) (rest : Bytes) :
    (peekTag >>= f).run (b ++ rest) = (f t).run (b ++ rest) := by
  rw [StateT.run_bind, (h.append rest).run, ok_bind]

variable [DecidableEq Tag]

theorem optionalTag_some {t : Tag} {r : Reader ε α} {b : Bytes} {a : α} (ht : HeadTag ε t b)
    (h : Reads r b a) : Reads (optionalTag t r) b (some a) := by
  intro rest
  unfold optionalTag
  rw [ht.run_bind, if_pos rfl]
  exact h.bind_pure some rest

/-- An absent field is recognised by the tag of what follows it. -/
theorem optionalTag_none {t t' : Tag} {r : Reader ε α} {b : Bytes} (ht : HeadTag ε t' b)
    (hne : t' ≠ t) : (optionalTag t r).run b = .ok (none, b) := by
  unfold optionalTag
  rw [StateT.run_bind, ht.run, ok_bind, if_neg hne]
  rfl

omit [DecidableEq Tag] in
theorem optionalRest_none (r : Reader ε α) : ReadsAll (optionalRest r) [] none := rfl

omit [DecidableEq Tag] in
theorem optionalRest_some {r : Reader ε α} {b : Bytes} {a : α} (hb : b ≠ [])
    (h : ReadsAll r b a) : ReadsAll (optionalRest r) b (some a) := by
  cases b with
  | nil => exact absurd rfl hb
  | cons o b => exact h.bind_pure some

end Optional

/-! ## Elements -/

/-- The bytes `b` are an element tagged `t` that `r` reads as `a`. -/
structure Element [Tlv Tag ε] (r : Reader ε α) (t : Tag) (a : α) (b : Bytes) : Prop where
  reads : Reads r b a
  tlv : ∃ v, encodeTlv (ε := ε) t v = .ok b

theorem element_of_encodeTlv [Tlv Tag ε] {r : Reader ε α} {t : Tag} {a : α} {v b : Bytes}
    (h : encodeTlv (ε := ε) t v = .ok b) (hr : Reads r b a) : Element r t a b :=
  ⟨hr, v, h⟩

section Elements

variable [TagOctet Tag] [Tlv Tag ε] [LawfulTlv Tag ε] {r : Reader ε α} {t : Tag} {a : α} {b : Bytes}

theorem Element.head (h : Element r t a b) : HeadTag ε t b := by
  obtain ⟨v, hv⟩ := h.tlv
  exact headTag_encodeTlv hv

theorem Element.ne_nil (h : Element r t a b) : b ≠ [] := by
  obtain ⟨v, hv⟩ := h.tlv
  exact encodeTlv_ne_nil hv

/-- A reader that dispatches on the tag of the next element. -/
theorem Element.peek {β : Type} (h : Element r t a b) {f : Tag → Reader ε β} {x : β}
    (hx : Reads (f t) b x) : Element (peekTag >>= f) t x b := by
  refine ⟨fun rest => ?_, h.tlv⟩
  rw [h.head.run_bind]
  exact hx rest

/-- A reader that dispatches on the tag of the next element, read whole. -/
theorem Element.probe {β : Type} (h : Element r t a b) {f : Tag → Reader ε β} {x : β}
    (hx : Reads (f t) b x) : Element (probeTag >>= f) t x b := by
  obtain ⟨v, hv⟩ := h.tlv
  refine ⟨fun rest => ?_, h.tlv⟩
  rw [probeTag_run_bind hv]
  exact hx rest

theorem Element.probe_all {β : Type} (h : Element r t a b) {f : Tag → Reader ε β} {x : β}
    (hx : ReadsAll (f t) b x) : ReadsAll (probeTag >>= f) b x := by
  obtain ⟨v, hv⟩ := h.tlv
  have := probeTag_run_bind hv f []
  rw [List.append_nil] at this
  exact this.trans hx

/-- A field that is written when present is read back by `optionalRest`. -/
theorem appendOptional_rest {write : Bytes → α → Except ε Bytes} {T : α → Tag}
    (hw : Appends write fun a b => Element r (T a) a b) {out out' : Bytes} {value : Option α}
    (h : appendOptional write out value = .ok out') :
    ∃ b, out' = out ++ b ∧ ReadsAll (optionalRest r) b value := by
  cases value with
  | none =>
    simp only [appendOptional, Except.ok.injEq] at h
    exact ⟨[], by simp [h], optionalRest_none r⟩
  | some a =>
    obtain ⟨b, rfl, hb⟩ := hw _ _ _ h
    exact ⟨b, rfl, optionalRest_some hb.ne_nil hb.reads.all⟩

/-- A field that is written when present is read back by `optionalTag`, if what
follows it starts with another tag. -/
theorem appendOptional_tag [DecidableEq Tag] {write : Bytes → α → Except ε Bytes}
    (hw : Appends write fun a b => Element r t a b) {out out' : Bytes} {value : Option α}
    (h : appendOptional write out value = .ok out') :
    ∃ b, out' = out ++ b ∧ ∀ t' rest, HeadTag ε t' rest → t' ≠ t →
      (optionalTag t r).run (b ++ rest) = .ok (value, rest) ∧
        HeadTag ε (if value = none then t' else t) (b ++ rest) := by
  cases value with
  | none =>
    simp only [appendOptional, Except.ok.injEq] at h
    exact ⟨[], by simp [h], fun t' rest hrest hne => ⟨optionalTag_none hrest hne, hrest⟩⟩
  | some a =>
    obtain ⟨b, rfl, hb⟩ := hw _ _ _ h
    exact ⟨b, rfl, fun t' rest _ _ =>
      ⟨optionalTag_some hb.head hb.reads rest, by simpa using hb.head.append rest⟩⟩

/-- Elements appended one after another are read back until the input ends. -/
theorem appendEncoded_readsAll {encode : α → Except ε Bytes} {T : α → Tag}
    (hencode : ∀ a b, encode a = .ok b → Element r (T a) a b) {items : List α} {out : Bytes}
    (h : appendEach (fun out a => do return out ++ (← encode a)) [] items = .ok out) :
    ReadsAll (untilFinished r) out items := by
  obtain ⟨bs, rfl, hbs⟩ := appendEach_eq_ok (appendEncoded_appends hencode) h
  exact untilFinished_readsAll (hbs.imp fun _ _ hb => ⟨hb.ne_nil, hb.reads⟩)

end Elements

end ByteCodec
