import KeetaNode.Asn1.Block.Types
import KeetaNode.Lib.Loop

/-!
# Codec of multisig signer trees

`encode_multisig_signer` and `decode_multisig_signer` of
`keetanetwork-asn1/src/block/codec/der_codec.rs` walk the signer tree with an
explicit stack of frames. Both are modelled as the step function of their loop,
and both are shown to do what the recursive form of the encoding says.

## Main results

- `encodeMultisigSigner_eq`: the writer's stack machine computes `encodeTree`
- `decodeMultisigSigner_encodeTree`: the reader's stack machine recovers the tree
- `encodeContent_of_decodeMultisigSigner`: and it accepts the encodings of trees only

Transport form per level: `SEQUENCE { OCTET address, SEQUENCE OF (OCTET account
| SEQUENCE nested) }`.
-/

namespace KeetaNode.Asn1

open ByteCodec

variable [Tlv Tag Asn1Error]

/-! ## Writer -/

/-- A node being written: the children still to write and the bytes of those written. -/
structure EncodeFrame where
  address : Bytes
  children : List Signer
  encodedChildren : Bytes

/-- The element of a node whose children are written. -/
def closeFrame (address encodedChildren : Bytes) : Except Asn1Error Bytes := do
  let content ← encodeOctet [] address
  let content := content ++ (← wrapSequence encodedChildren)
  wrapSequence content

/-- Hand a finished element to the parent frame, or return it. -/
def returnContainer (container : Bytes) :
    List EncodeFrame → List EncodeFrame ⊕ Except Asn1Error Bytes
  | [] => .inr (.ok container)
  | parent :: stack =>
    .inl ({ parent with encodedChildren := parent.encodedChildren ++ container } :: stack)

/-- One round of the writer's loop; the top of the stack comes first. -/
def encodeStep : List EncodeFrame → List EncodeFrame ⊕ Except Asn1Error Bytes
  | [] => .inr (.error invalidBlock)
  | ⟨address, [], encoded⟩ :: stack =>
    match closeFrame address encoded with
    | .error e => .inr (.error e)
    | .ok container => returnContainer container stack
  | ⟨_, .empty :: _, _⟩ :: _ => .inr (.error invalidBlock)
  | ⟨address, .single account :: children, encoded⟩ :: stack =>
    match encodeOctet encoded account with
    | .error e => .inr (.error e)
    | .ok encoded => .inl (⟨address, children, encoded⟩ :: stack)
  | ⟨address, .multisig nested signers :: children, encoded⟩ :: stack =>
    .inl (⟨nested, signers, []⟩ :: ⟨address, children, encoded⟩ :: stack)

mutual

/-- Rounds a tree costs the writer. -/
def Signer.rounds : Signer → Nat
  | .empty => 1
  | .single _ => 1
  | .multisig _ signers => 2 + roundsAll signers

/-- Rounds a list of trees costs the writer. -/
def roundsAll : List Signer → Nat
  | [] => 0
  | s :: signers => s.rounds + roundsAll signers

end

def encodeMeasure (stack : List EncodeFrame) : Nat :=
  (stack.map fun frame => 1 + roundsAll frame.children).sum

def encodeMultisigSigner (value : MultisigSigner) : Except Asn1Error Bytes :=
  loop encodeStep (.error invalidBlock) encodeMeasure [⟨value.address, value.signers, []⟩]

/-! ## Recursive form of the encoding -/

mutual

/-- The element of a signer tree. -/
def encodeTree : Signer → Except Asn1Error Bytes
  | .empty => .error invalidBlock
  | .single account => encodeTlv .octetString account
  | .multisig address signers => do
    closeFrame address (← encodeTrees [] signers)

/-- Append the elements of a list of trees. -/
def encodeTrees (out : Bytes) : List Signer → Except Asn1Error Bytes
  | [] => .ok out
  | s :: signers => do
    encodeTrees (out ++ (← encodeTree s)) signers

end

theorem encodeStep_decreasing : Decreasing encodeStep encodeMeasure := by
  intro stack stack' h
  match stack with
  | [] => simp [encodeStep] at h
  | ⟨address, [], encoded⟩ :: stack =>
    simp only [encodeStep] at h
    split at h
    · simp at h
    -- closing a frame ends the loop or leaves one frame less
    · cases stack with
      | nil => simp [returnContainer] at h
      | cons parent stack =>
        simp only [returnContainer, Sum.inl.injEq] at h
        subst h
        simp [encodeMeasure, roundsAll]
  | ⟨_, .empty :: _, _⟩ :: _ => simp [encodeStep] at h
  | ⟨address, .single account :: children, encoded⟩ :: stack =>
    simp only [encodeStep] at h
    split at h
    · simp at h
    · simp only [Sum.inl.injEq] at h
      subst h
      simp [encodeMeasure, roundsAll, Signer.rounds]
  | ⟨address, .multisig nested signers :: children, encoded⟩ :: stack =>
    simp only [encodeStep, Sum.inl.injEq] at h
    subst h
    -- a nested node costs two rounds: its frame is opened here and closed later
    simp only [encodeMeasure, roundsAll, Signer.rounds, List.map_cons, List.sum_cons]
    omega

/-- What the loop does with a finished element. -/
private def resume (stack : List EncodeFrame) (container : Bytes) : Except Asn1Error Bytes :=
  match returnContainer container stack with
  | .inl stack => loop encodeStep (.error invalidBlock) encodeMeasure stack
  | .inr result => result

/-- The loop writes the remaining children of the top frame, closes the frame and
goes on with the frames below. -/
private theorem loop_encodeStep (n : Nat) :
    ∀ (children : List Signer), roundsAll children < n → ∀ (address encoded : Bytes)
      (stack : List EncodeFrame),
      loop encodeStep (.error invalidBlock) encodeMeasure (⟨address, children, encoded⟩ :: stack) =
        (do resume stack (← closeFrame address (← encodeTrees encoded children))) := by
  induction n with
  | zero => intro children hn; omega
  | succ n ih =>
    intro children hn address encoded stack
    rw [loop_eq encodeStep_decreasing]
    match children with
    | [] =>
      simp only [encodeStep, encodeTrees, ok_bind, resume]
      cases closeFrame address encoded with
      | error e => rfl
      | ok container =>
        rw [ok_bind]
        -- the frame is complete and its element goes to the frame below
        cases hr : returnContainer container stack <;> simp [hr]
    | .empty :: children => simp [encodeStep, encodeTrees, encodeTree]
    | .single account :: children =>
      simp only [roundsAll, Signer.rounds] at hn
      simp only [encodeStep, encodeTrees, encodeTree, encodeOctet, appendTlv]
      cases hb : encodeTlv (ε := Asn1Error) Tag.octetString account with
      | error e => simp
      | ok b => simpa using ih children (by omega) address (encoded ++ b) stack
    | .multisig nested signers :: children =>
      simp only [roundsAll, Signer.rounds] at hn
      simp only [encodeStep, encodeTrees, encodeTree]
      -- the nested frame is written first, then the rest of this one
      rw [ih signers (by omega)]
      cases encodeTrees [] signers with
      | error e => rfl
      | ok inner =>
        cases hc : closeFrame nested inner with
        | error e => simp [hc]
        | ok container =>
          simp only [ok_bind, hc, resume, returnContainer]
          exact ih children (by omega) address (encoded ++ container) stack

/-- **The writer's stack machine computes the recursive encoding.** -/
theorem encodeMultisigSigner_eq (value : MultisigSigner) :
    encodeMultisigSigner value = encodeTree value.toSigner := by
  unfold encodeMultisigSigner MultisigSigner.toSigner
  rw [loop_encodeStep _ value.signers (Nat.lt_succ_self _)]
  simp only [encodeTree]
  cases encodeTrees [] value.signers with
  | error e => rfl
  | ok inner =>
    cases h : closeFrame value.address inner <;> simp [h, resume, returnContainer]

/-- Some element is refused by the framing. -/
def Refused (e : Asn1Error) : Prop :=
  ∃ tag content, encodeTlv (ε := Asn1Error) tag content = .error e

theorem closeFrame_eq_error {address encoded : Bytes} {e : Asn1Error}
    (h : closeFrame address encoded = .error e) : Refused e := by
  obtain h | ⟨ab, -, h⟩ := bind_eq_error.mp h
  · obtain h | ⟨b, -, h⟩ := bind_eq_error.mp h
    · exact ⟨_, _, h⟩
    · cases h
  · obtain h | ⟨sb, -, h⟩ := bind_eq_error.mp h
    · exact ⟨_, _, h⟩
    · exact ⟨_, _, h⟩

/-- The first tree that is refused decides for a list of them. -/
private theorem encodeTrees_eq_error {signers : List Signer} {e : Asn1Error}
    (hone : ∀ s ∈ signers, s.IsNonempty → encodeTree s = .error e → Refused e)
    (hs : allNonempty signers) {out : Bytes} (h : encodeTrees out signers = .error e) :
    Refused e := by
  induction signers generalizing out with
  | nil => simp [encodeTrees] at h
  | cons s signers ih =>
    simp only [encodeTrees] at h
    obtain h | ⟨b, -, h⟩ := bind_eq_error.mp h
    · exact hone s (by simp) hs.1 h
    · exact ih (fun t ht => hone t (by simp [ht])) hs.2 h

/-- A tree without placeholders is encoded, but for elements that the framing refuses. -/
theorem encodeTree_eq_error {s : Signer} {e : Asn1Error} (hs : s.IsNonempty)
    (h : encodeTree s = .error e) : Refused e := by
  induction s using Signer.treeInduction with
  | empty => exact hs.elim
  | single account => exact ⟨_, _, h⟩
  | multisig address signers ih =>
    simp only [encodeTree] at h
    obtain h | ⟨encoded, -, h⟩ := bind_eq_error.mp h
    · exact encodeTrees_eq_error ih hs h
    · exact closeFrame_eq_error h

/-! ## Reader -/

/-- A node being read: what is left of its children's bytes and the children read. -/
structure DecodeFrame where
  address : Bytes
  reader : Bytes
  children : List Signer

/-- An element of a node's children. -/
inductive DecodedChild where
  | account (bytes : Bytes)
  | nested (content : Bytes)

/-- The two elements of a node: its address and the content of its children. -/
def readFrame : Reader Asn1Error (Bytes × Bytes) := do
  let address ← readOctet
  let signersContent ← readSequence
  return (address, signersContent)

def openFrame (content : Bytes) : Except Asn1Error DecodeFrame := do
  let (address, signersContent) ← within content (toEnd invalidBlock readFrame)
  openSlice signersContent
  return ⟨address, signersContent, []⟩

def readChild : Reader Asn1Error DecodedChild := do
  match (← peekTag) with
  | .octetString => return .account (← readOctet)
  | .sequence => return .nested (← readSequence)
  | other => throw (unexpectedTag other)

/-- Read the next child of the top frame; a nested node opens a frame of its own. -/
def decodeChild (top : DecodeFrame) (stack : List DecodeFrame) :
    Except Asn1Error (List DecodeFrame) := do
  let (child, rest) ← readChild.run top.reader
  match child with
  | .account account =>
    return { top with reader := rest, children := top.children ++ [.single account] } :: stack
  | .nested content =>
    let frame ← openFrame content
    return frame :: { top with reader := rest } :: stack

/-- Hand a finished node to the parent frame, or return it. -/
def returnMultisig (multi : MultisigSigner) :
    List DecodeFrame → List DecodeFrame ⊕ Except Asn1Error MultisigSigner
  | [] => .inr (.ok multi)
  | parent :: stack =>
    .inl ({ parent with children := parent.children ++ [multi.toSigner] } :: stack)

/-- One round of the reader's loop; the top of the stack comes first. -/
def decodeStep : List DecodeFrame → List DecodeFrame ⊕ Except Asn1Error MultisigSigner
  | [] => .inr (.error invalidBlock)
  | top :: stack =>
    if top.reader = [] then returnMultisig ⟨top.address, top.children⟩ stack
    else
      match decodeChild top stack with
      | .error e => .inr (.error e)
      | .ok stack => .inl stack

def decodeMeasure (stack : List DecodeFrame) : Nat :=
  (stack.map fun frame => 1 + frame.reader.length).sum

def decodeMultisigSigner (content : Bytes) : Except Asn1Error MultisigSigner := do
  let frame ← openFrame content
  loop decodeStep (.error invalidBlock) decodeMeasure [frame]

/-! ## The reader inverts the writer -/

variable {s : Signer} {b content : Bytes}

theorem closeFrame_eq_ok {address encoded : Bytes} (h : closeFrame address encoded = .ok b) :
    ∃ ab sb, encodeTlv (ε := Asn1Error) .octetString address = .ok ab ∧
      encodeTlv (ε := Asn1Error) .sequence encoded = .ok sb ∧
      encodeTlv (ε := Asn1Error) .sequence (ab ++ sb) = .ok b := by
  obtain ⟨ab, hab, h⟩ := bind_eq_ok.mp h
  obtain ⟨sb, hsb, h⟩ := bind_eq_ok.mp h
  exact ⟨ab, sb, appendTlv_nil_eq_ok hab, hsb, h⟩

theorem encodeTrees_eq_ok {out out' : Bytes} {signers : List Signer}
    (h : encodeTrees out signers = .ok out') :
    ∃ bs, out' = out ++ bs.flatten ∧ List.Forall₂ (fun s b => encodeTree s = .ok b) signers bs := by
  induction signers generalizing out with
  | nil =>
    simp only [encodeTrees, Except.ok.injEq] at h
    exact ⟨[], by simp [h], .nil⟩
  | cons s signers ih =>
    simp only [encodeTrees, bind_eq_ok] at h
    obtain ⟨b, hb, h⟩ := h
    obtain ⟨bs, rfl, hbs⟩ := ih h
    exact ⟨b :: bs, by simp, .cons hb hbs⟩

variable [LawfulTlv Tag Asn1Error]

/-- Opening the content of a node finds its address and its children's bytes. -/
theorem openFrame_eq_ok {address inner ab sb : Bytes}
    (hab : encodeTlv (ε := Asn1Error) .octetString address = .ok ab)
    (hsb : encodeTlv (ε := Asn1Error) .sequence inner = .ok sb)
    (hb : encodeTlv (ε := Asn1Error) .sequence (ab ++ sb) = .ok b) :
    openFrame (ab ++ sb) = .ok ⟨address, inner, []⟩ := by
  have hread : Reads readFrame (ab ++ sb) (address, inner) :=
    (reads_readFixed hab).bind ((reads_readTagged hsb).bind_pure _)
  unfold openFrame
  rw [within_eq_ok hb (hread.all.toEnd invalidBlock), ok_bind]
  simp only [LawfulTlv.open_content hsb, ok_bind, pure_eq_ok]

/-- What is opened are the two elements of a node. -/
theorem elements_of_openFrame {frame : DecodeFrame} (h : openFrame content = .ok frame) :
    frame.children = [] ∧ ∃ ab sb,
      encodeTlv (ε := Asn1Error) .octetString frame.address = .ok ab ∧
      encodeTlv (ε := Asn1Error) .sequence frame.reader = .ok sb ∧ content = ab ++ sb := by
  obtain ⟨⟨address, inner⟩, hwithin, h⟩ := bind_eq_ok.mp h
  obtain ⟨_, -, h⟩ := bind_eq_ok.mp h
  rw [pure_eq_ok, Except.ok.injEq] at h
  subst h
  obtain ⟨rest, hrun⟩ := run_of_within_eq_ok hwithin
  obtain ⟨hrun, -⟩ := toEnd_run_eq_ok.mp hrun
  obtain ⟨address', mid, haddress, hrun⟩ := run_bind_eq_ok.mp hrun
  obtain ⟨inner', mid', hinner, hrun⟩ := run_bind_eq_ok.mp hrun
  obtain ⟨⟨rfl, rfl⟩, rfl⟩ : (address' = address ∧ inner' = inner) ∧ mid' = [] := by
    simpa using hrun
  obtain ⟨ab, hab, rfl⟩ := readFixed_eq_ok haddress
  obtain ⟨sb, hsb, rfl⟩ := readTagged_eq_ok hinner
  exact ⟨rfl, ab, sb, hab, hsb, by rw [List.append_nil]⟩

/-- The children's bytes of a node are shorter than its content. -/
private theorem openFrame_length {frame : DecodeFrame} (h : openFrame content = .ok frame) :
    frame.reader.length < content.length := by
  obtain ⟨-, ab, sb, -, hsb, rfl⟩ := elements_of_openFrame h
  -- the children's bytes are framed inside the content
  have hlt := LawfulTlv.length_encode hsb
  rw [List.length_append]
  omega

/-- A child that is read is an element at the front of the bytes. -/
theorem readChild_eq_ok {child : DecodedChild} {input rest : Bytes}
    (h : readChild.run input = .ok (child, rest)) :
    ∃ element, input = element ++ rest ∧
      match child with
      | .account account => encodeTlv (ε := Asn1Error) .octetString account = .ok element
      | .nested inner => encodeTlv (ε := Asn1Error) .sequence inner = .ok element := by
  obtain ⟨tag, mid, hpeek, h⟩ := run_bind_eq_ok.mp h
  rw [peekTag_run_eq_ok hpeek] at h
  split at h
  case h_1 =>
    obtain ⟨account, mid, hread, h⟩ := run_bind_eq_ok.mp h
    obtain ⟨rfl, rfl⟩ : DecodedChild.account account = child ∧ mid = rest := by simpa using h
    obtain ⟨b, hb, rfl⟩ := readFixed_eq_ok hread
    exact ⟨b, rfl, hb⟩
  case h_2 =>
    obtain ⟨inner, mid, hread, h⟩ := run_bind_eq_ok.mp h
    obtain ⟨rfl, rfl⟩ : DecodedChild.nested inner = child ∧ mid = rest := by simpa using h
    obtain ⟨b, hb, rfl⟩ := readTagged_eq_ok hread
    exact ⟨b, rfl, hb⟩
  case h_3 => simp at h

theorem decodeStep_decreasing : Decreasing decodeStep decodeMeasure := by
  intro stack stack' h
  cases stack with
  | nil => simp [decodeStep] at h
  | cons top stack =>
    simp only [decodeStep] at h
    split at h
    case isTrue hnil =>
      cases stack with
      | nil => simp [returnMultisig] at h
      | cons parent stack =>
        simp only [returnMultisig, Sum.inl.injEq] at h
        subst h
        -- a frame that is read to its end is dropped
        simp [decodeMeasure, hnil]
    case isFalse hne =>
      split at h
      case h_1 => simp at h
      case h_2 next hchild =>
        simp only [Sum.inl.injEq] at h
        subst h
        obtain ⟨⟨child, rest⟩, hread, hchild⟩ := bind_eq_ok.mp hchild
        obtain ⟨element, hinput, helement⟩ := readChild_eq_ok hread
        cases child with
        | account account =>
          simp only [pure_eq_ok, Except.ok.injEq] at hchild
          subst hchild
          have := LawfulTlv.length_encode helement
          simp only [decodeMeasure, hinput, List.map_cons, List.sum_cons, List.length_append]
          omega
        | nested content =>
          obtain ⟨frame, hframe, hchild⟩ := bind_eq_ok.mp hchild
          simp only [pure_eq_ok, Except.ok.injEq] at hchild
          subst hchild
          have := openFrame_length hframe
          have := LawfulTlv.length_encode helement
          -- the nested content leaves the parent's bytes and gives its frame fewer
          simp only [decodeMeasure, hinput, List.map_cons, List.sum_cons, List.length_append]
          omega

private theorem loop_decodeStep_cons {top : DecodeFrame} {stack stack' : List DecodeFrame}
    (hne : top.reader ≠ []) (h : decodeChild top stack = .ok stack') :
    loop decodeStep (.error invalidBlock) decodeMeasure (top :: stack) =
      loop decodeStep (.error invalidBlock) decodeMeasure stack' := by
  rw [loop_eq decodeStep_decreasing]
  simp [decodeStep, hne, h]

omit [LawfulTlv Tag Asn1Error] in
/-- Trees read one after another, given that each of them is. -/
private theorem loop_decodeStep_forall {signers : List Signer} {bs : List Bytes}
    (hbs : List.Forall₂ (fun s b => encodeTree s = .ok b) signers bs)
    (hone : ∀ s ∈ signers, ∀ b, encodeTree s = .ok b → ∀ address rest children stack,
      loop decodeStep (.error invalidBlock) decodeMeasure
          (⟨address, b ++ rest, children⟩ :: stack) =
        loop decodeStep (.error invalidBlock) decodeMeasure
          (⟨address, rest, children ++ [s]⟩ :: stack))
    (address rest : Bytes) (children : List Signer) (stack : List DecodeFrame) :
    loop decodeStep (.error invalidBlock) decodeMeasure
        (⟨address, bs.flatten ++ rest, children⟩ :: stack) =
      loop decodeStep (.error invalidBlock) decodeMeasure
        (⟨address, rest, children ++ signers⟩ :: stack) := by
  induction hbs generalizing children with
  | nil => simp
  | @cons s b signers bs hb _ ih =>
    rw [List.flatten_cons, List.append_assoc, hone s (by simp) b hb,
      ih fun t ht => hone t (by simp [ht])]
    simp

/-- The loop reads the element of one tree as one child of the top frame. -/
private theorem loop_decodeStep_encodeTree (s : Signer) :
    ∀ b, encodeTree s = .ok b → ∀ address rest children stack,
      loop decodeStep (.error invalidBlock) decodeMeasure
          (⟨address, b ++ rest, children⟩ :: stack) =
        loop decodeStep (.error invalidBlock) decodeMeasure
          (⟨address, rest, children ++ [s]⟩ :: stack) := by
  induction s using Signer.treeInduction with
  | empty => intro b hb; simp [encodeTree] at hb
  | single account =>
    intro b hb address rest children stack
    simp only [encodeTree] at hb
    refine loop_decodeStep_cons (by simp [encodeTlv_ne_nil hb]) ?_
    have hread : readChild.run (b ++ rest) = .ok (.account account, rest) := by
      unfold readChild
      rw [(headTag_encodeTlv hb).run_bind]
      exact (reads_readOctet hb).bind_pure _ rest
    unfold decodeChild
    rw [hread]
    rfl
  | multisig nested signers ih =>
    intro b hb address rest children stack
    simp only [encodeTree, bind_eq_ok] at hb
    obtain ⟨inner, hinner, hclose⟩ := hb
    obtain ⟨bs, rfl, hbs⟩ := encodeTrees_eq_ok hinner
    obtain ⟨ab, sb, hab, hsb, hb⟩ := closeFrame_eq_ok hclose
    have hread : readChild.run (b ++ rest) = .ok (.nested (ab ++ sb), rest) := by
      unfold readChild
      rw [(headTag_encodeTlv hb).run_bind]
      exact (reads_readTagged hb).bind_pure _ rest
    have hopen : decodeChild ⟨address, b ++ rest, children⟩ stack =
        .ok (⟨nested, bs.flatten, []⟩ :: ⟨address, rest, children⟩ :: stack) := by
      unfold decodeChild
      rw [hread, ok_bind]
      simp only [openFrame_eq_ok hab hsb hb, List.nil_append, ok_bind, pure_eq_ok]
    rw [loop_decodeStep_cons (by simp [encodeTlv_ne_nil hb]) hopen]
    -- the frame of the nested node is read to its end, then closed
    have hall := loop_decodeStep_forall hbs ih nested [] [] (⟨address, rest, children⟩ :: stack)
    rw [List.append_nil, List.nil_append] at hall
    rw [hall, loop_eq decodeStep_decreasing]
    rfl

/-- **The reader's stack machine recovers the tree** from the content of its element. -/
theorem decodeMultisigSigner_encodeTree {value : MultisigSigner}
    (h : encodeTree value.toSigner = .ok b) :
    ∃ content, encodeTlv (ε := Asn1Error) .sequence content = .ok b ∧
      decodeMultisigSigner content = .ok value := by
  simp only [MultisigSigner.toSigner, encodeTree, bind_eq_ok] at h
  obtain ⟨inner, hinner, hclose⟩ := h
  obtain ⟨bs, rfl, hbs⟩ := encodeTrees_eq_ok hinner
  obtain ⟨ab, sb, hab, hsb, hb⟩ := closeFrame_eq_ok hclose
  refine ⟨ab ++ sb, hb, ?_⟩
  have hall := loop_decodeStep_forall hbs (fun s _ => loop_decodeStep_encodeTree s)
    value.address [] [] []
  rw [List.append_nil, List.nil_append] at hall
  unfold decodeMultisigSigner
  rw [openFrame_eq_ok hab hsb hb, ok_bind, List.nil_append, hall, loop_eq decodeStep_decreasing]
  rfl

/-! ## What the reader accepts is an encoding -/

section Accepted

omit [LawfulTlv Tag Asn1Error]

/-- The content of the element of a node. -/
def encodeContent (value : MultisigSigner) : Except Asn1Error Bytes := do
  let encodedChildren ← encodeTrees [] value.signers
  let content ← encodeOctet [] value.address
  return content ++ (← wrapSequence encodedChildren)

theorem encodeTree_toSigner (value : MultisigSigner) :
    encodeTree value.toSigner = (do wrapSequence (← encodeContent value)) := by
  simp only [MultisigSigner.toSigner, encodeTree, closeFrame, encodeContent, bind_assoc,
    pure_bind]

theorem encodeTrees_append (out : Bytes) (signers : List Signer) (s : Signer) :
    encodeTrees out (signers ++ [s]) =
      (do return (← encodeTrees out signers) ++ (← encodeTree s)) := by
  induction signers generalizing out with
  | nil => simp [encodeTrees]
  | cons t signers ih => simp [encodeTrees, ih]

/-- The children a frame has read and the bytes it has left make up the node's content. -/
def DecodeFrame.Completes (frame : DecodeFrame) (content : Bytes) : Prop :=
  ∃ read ab sb, encodeTrees [] frame.children = .ok read ∧
    encodeTlv (ε := Asn1Error) .octetString frame.address = .ok ab ∧
    encodeTlv (ε := Asn1Error) .sequence (read ++ frame.reader) = .ok sb ∧ content = ab ++ sb

/-- Where the stack stands in the content of the root: a node that is being read is an element
which its parent's bytes started with. -/
inductive ReadingOf (content : Bytes) : List DecodeFrame → Prop
  | root {frame : DecodeFrame} : frame.Completes content → ReadingOf content [frame]
  | nested {frame parent : DecodeFrame} {stack : List DecodeFrame} {inner element : Bytes} :
    frame.Completes inner → encodeTlv (ε := Asn1Error) .sequence inner = .ok element →
    ReadingOf content ({ parent with reader := element ++ parent.reader } :: stack) →
    ReadingOf content (frame :: parent :: stack)

theorem DecodeFrame.Completes.read {address element rest : Bytes} {children : List Signer}
    (h : DecodeFrame.Completes ⟨address, element ++ rest, children⟩ content)
    (hs : encodeTree s = .ok element) :
    DecodeFrame.Completes ⟨address, rest, children ++ [s]⟩ content := by
  obtain ⟨read, ab, sb, hread, hab, hsb, rfl⟩ := h
  refine ⟨read ++ element, ab, sb, ?_, hab, ?_, rfl⟩
  · simp only [encodeTrees_append, hread, hs, ok_bind, pure_eq_ok]
  · simpa using hsb

/-- A child at the front of the top frame's bytes moves to the children that are read. -/
theorem ReadingOf.read {address element rest : Bytes} {children : List Signer}
    {stack : List DecodeFrame}
    (h : ReadingOf content (⟨address, element ++ rest, children⟩ :: stack))
    (hs : encodeTree s = .ok element) :
    ReadingOf content (⟨address, rest, children ++ [s]⟩ :: stack) := by
  cases h with
  | root htop => exact .root (htop.read hs)
  | nested htop helement hparent => exact .nested (htop.read hs) helement hparent

/-- A frame that is read to its end is the node whose content it has read. -/
theorem DecodeFrame.Completes.encodeContent {frame : DecodeFrame} (h : frame.Completes content)
    (hnil : frame.reader = []) : encodeContent ⟨frame.address, frame.children⟩ = .ok content := by
  obtain ⟨read, ab, sb, hread, hab, hsb, rfl⟩ := h
  rw [hnil, List.append_nil] at hsb
  simp only [Asn1.encodeContent, encodeOctet, appendTlv, wrapSequence, hread, hab, hsb, ok_bind,
    pure_eq_ok, List.nil_append]

/-- The loop ends with the node whose content was read. -/
theorem encodeContent_of_decodeStep {stack : List DecodeFrame} {value : MultisigSigner}
    (h : ReadingOf content stack) (hstep : decodeStep stack = .inr (.ok value)) :
    encodeContent value = .ok content := by
  cases h with
  | root htop =>
    simp only [decodeStep] at hstep
    split at hstep
    case isTrue hnil =>
      simp only [returnMultisig, Sum.inr.injEq, Except.ok.injEq] at hstep
      subst hstep
      exact htop.encodeContent hnil
    case isFalse => split at hstep <;> simp at hstep
  | nested =>
    simp only [decodeStep] at hstep
    split at hstep
    case isTrue => simp [returnMultisig] at hstep
    case isFalse => split at hstep <;> simp at hstep

end Accepted

theorem completes_of_openFrame {frame : DecodeFrame} (h : openFrame content = .ok frame) :
    frame.Completes content := by
  obtain ⟨hchildren, ab, sb, hab, hsb, rfl⟩ := elements_of_openFrame h
  exact ⟨[], ab, sb, by rw [hchildren, encodeTrees], hab, hsb, rfl⟩

/-- One round of the reader's loop keeps its place in the content. -/
theorem decodeStep_readingOf {stack stack' : List DecodeFrame} (h : ReadingOf content stack)
    (hstep : decodeStep stack = .inl stack') : ReadingOf content stack' := by
  cases stack with
  | nil => cases h
  | cons top stack =>
    simp only [decodeStep] at hstep
    split at hstep
    case isTrue hnil =>
      cases h with
      | root => simp [returnMultisig] at hstep
      | @nested _ parent stack inner element htop helement hparent =>
        -- the frame is complete, and its element is a child of the frame below
        simp only [returnMultisig, Sum.inl.injEq] at hstep
        subst hstep
        refine hparent.read ?_
        rw [encodeTree_toSigner, htop.encodeContent hnil, ok_bind]
        exact helement
    case isFalse hne =>
      split at hstep
      case h_1 => simp at hstep
      case h_2 next hchild =>
        simp only [Sum.inl.injEq] at hstep
        subst hstep
        obtain ⟨⟨child, rest⟩, hread, hchild⟩ := bind_eq_ok.mp hchild
        obtain ⟨element, hinput, helement⟩ := readChild_eq_ok hread
        obtain ⟨address, reader, children⟩ := top
        obtain rfl : reader = element ++ rest := hinput
        cases child with
        | account account =>
          simp only [pure_eq_ok, Except.ok.injEq] at hchild
          subst hchild
          exact h.read (s := .single account) (by simpa only [encodeTree] using helement)
        | nested inner =>
          -- the frame below waits for the element whose content is opened here
          obtain ⟨frame, hframe, hchild⟩ := bind_eq_ok.mp hchild
          simp only [pure_eq_ok, Except.ok.injEq] at hchild
          subst hchild
          exact .nested (completes_of_openFrame hframe) helement h

/-- **The reader accepts encodings only**: a tree that is read has the content as the content
of its element. -/
theorem encodeContent_of_decodeMultisigSigner {value : MultisigSigner}
    (h : decodeMultisigSigner content = .ok value) : encodeContent value = .ok content := by
  obtain ⟨frame, hframe, h⟩ := bind_eq_ok.mp h
  have hrun := loop_rule (I := ReadingOf content)
    (Q := fun result => result = .ok value → encodeContent value = .ok content)
    (fun stack stack' hstack hstep =>
      ⟨decodeStep_readingOf hstack hstep, decodeStep_decreasing stack stack' hstep⟩)
    (fun stack result hstack hstep hresult =>
      encodeContent_of_decodeStep hstack (hresult ▸ hstep))
    (.error invalidBlock) (.root (completes_of_openFrame hframe))
  exact hrun h

end KeetaNode.Asn1
