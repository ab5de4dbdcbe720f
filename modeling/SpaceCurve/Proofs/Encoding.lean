import SpaceCurve.Proofs.Records
import SpaceCurve.Proofs.Walking

/-!
# Trees and their records

`Tree.encode?` writes a tree as a record, with the records of the children inside that of the
parent.  Such a record has to tell the tree from every other one, and this is in doubt because nodes
of different kinds share the names of their fields: a parameter and a constant are both a name, a
sign stands under the same name whether it has one operand or two.  Only the type keeps them apart.
It is enough, since records are equal only if they agree under every name
(`Value.equals_record_iff`), and then the nodes are of one kind and can be compared field by field.

Equality is not identity here.  Zero equals its negative, so that equal trees may be two different
ones, while `nan` is identical to itself and equal to nothing.

## What is here

* `Tree.typeName` — the type that a record names.  Equal records have the same one
  (`typeName_eq_of_equals`), and so have equal trees; `casesOnType` is the case split for both.
* `Tree.equals_encode?_iff` — **records are equal exactly if the trees are**, by induction on one
  tree for all others.
* `Tree.unsigned` — the tree with the sign taken from every zero.  In trees without `nan` this is
  all that equality leaves open (`same_iff_unsigned_eq`).
* `Tree.encode?_eq_none_iff_blank_mem` — a tree has no record exactly if there is a node of no kind
  on the walk through it.  The encoder is a recursion and the walk a loop over a stack; what they
  have in common is one step from a tree to its children (`encode?_eq_none_iff`, `walk_eq`).
* `Tree.document_faithful` — the two together, for the record under the name of its format.
-/

set_option autoImplicit false

namespace SpaceCurve

/-! ## Equal numbers -/

/-- The float, without its sign if it is a zero. -/
def Binary64.unsigned (x : Float) : Float := if x == 0 then 0 else x

/-- **Floats are equal exactly if they are identical up to the sign of a zero**, `nan` excepted. -/
theorem Binary64.beq_iff_unsigned_eq {x : Float} (hx : x.isNaN = false) (y : Float) :
    (x == y) = true ↔ unsigned x = unsigned y := by
  have hnan : x ≠ Float.nan := of_decide_eq_false (Float.isNaN_eq_decide_eq_nan ▸ hx)
  have hzero : (0 : Float) ≠ Float.nan := by decide
  grind [unsigned, Float.beq_iff_ne_nan_and_eq]

/-! ## Equal values -/

namespace Value

@[simp] theorem equals_text (s t : String) : (text s).equals (text t) = (s == t) := rfl

@[simp] theorem equals_real (x y : Float) : (real x).equals (real y) = (x == y) := rfl

theorem equals_list_cons (v w : Value) (vs ws : List Value) :
    (list (v :: vs)).equals (list (w :: ws)) = (v.equals w && (list vs).equals (list ws)) := rfl

end Value

theorem Fields.equals_iff {fields others : Fields} : fields.equals others = true ↔
    ∀ f ∈ fields, ∃ w, others.get? f.1 = some w ∧ f.2.equals w = true := by
  induction fields with
  | nil => exact iff_of_true rfl (List.forall_mem_nil _)
  | cons f rest ih =>
    rw [List.forall_mem_cons, ← ih, equals, Value.agreesFields]
    cases others.get? f.1 with
    | none => simp
    | some w => simp [Value.equals, equals]

/-- **Records are equal when they have as many fields and equal values under the same names**, in
whatever order the fields stand. -/
theorem Value.equals_record_iff {fields others : Fields} :
    (record fields).equals (record others) = true ↔ fields.length = others.length ∧
      ∀ f ∈ fields, ∃ w, others.get? f.1 = some w ∧ f.2.equals w = true := by
  rw [← Fields.equals_iff, equals, agrees, Bool.and_eq_true, beq_iff_eq, Fields.equals]

namespace Tree

variable {a b t : Tree} {trees others : List Tree} {v w : Value} {vs ws : List Value}

/-! ## Records of trees -/

theorem encode?_binary_eq_some_iff {op : String} {left right : Tree} :
    (binary op left right).encode? = some v ↔
      ∃ l, left.encode? = some l ∧ ∃ r, right.encode? = some r ∧
        .record [("type", .text "binop"), ("op", .text op), ("left", l), ("right", r)] = v := by
  simp only [encode?, Option.bind_eq_bind, Option.bind_eq_some_iff, Option.pure_def,
    Option.some.injEq]

theorem encode?_unary_eq_some_iff {op : String} {arg : Tree} :
    (unary op arg).encode? = some v ↔ ∃ x, arg.encode? = some x ∧
      .record [("type", .text "unop"), ("op", .text op), ("arg", x)] = v := by
  simp only [encode?, Option.bind_eq_bind, Option.bind_eq_some_iff, Option.pure_def,
    Option.some.injEq]

theorem encode?_call_eq_some_iff {name : String} {args : List Tree} :
    (call name args).encode? = some v ↔ ∃ xs, encodeAll? args = some xs ∧
      .record [("type", .text "call"), ("name", .text name), ("args", .list xs)] = v := by
  simp only [encode?, Option.bind_eq_bind, Option.bind_eq_some_iff, Option.pure_def,
    Option.some.injEq]

theorem encodeAll?_cons_eq_some_iff : encodeAll? (t :: trees) = some vs ↔
    ∃ x, t.encode? = some x ∧ ∃ xs, encodeAll? trees = some xs ∧ x :: xs = vs := by
  simp only [encodeAll?, Option.bind_eq_bind, Option.bind_eq_some_iff, Option.pure_def,
    Option.some.injEq]

/-! ## The type of a node -/

/-- The type that the record of a node names.  A node of no kind has none. -/
def typeName : Tree → String
  | number _ => "number"
  | parameter _ => "var"
  | constant _ => "const"
  | binary _ _ _ => "binop"
  | unary _ _ => "unop"
  | call _ _ => "call"
  | blank => ""

/-- What holds of any two nodes of each kind holds of any two nodes of one type. -/
@[elab_as_elim]
theorem casesOnType {motive : (a b : Tree) → a.typeName = b.typeName → Prop} (a b : Tree)
    (htype : a.typeName = b.typeName)
    (number : ∀ x y, motive (number x) (number y) rfl)
    (parameter : ∀ m n, motive (parameter m) (parameter n) rfl)
    (constant : ∀ m n, motive (constant m) (constant n) rfl)
    (binary : ∀ o l r p m s, motive (binary o l r) (binary p m s) rfl)
    (unary : ∀ o x p y, motive (unary o x) (unary p y) rfl)
    (call : ∀ m xs n ys, motive (call m xs) (call n ys) rfl)
    (blank : motive blank blank rfl) : motive a b htype := by
  cases a <;> cases b <;> first | apply_assumption | simp [typeName] at htype

theorem typeName_eq_of_same (h : a.same b = true) : a.typeName = b.typeName := by
  cases a <;> cases b <;> first | rfl | cases h

/-- A record begins with the type. -/
theorem exists_record_of_encode? (h : t.encode? = some v) :
    ∃ fields, v = .record (("type", .text t.typeName) :: fields) := by
  cases t with
  | number x => exact ⟨_, (Option.some.inj h).symm⟩
  | parameter name => exact ⟨_, (Option.some.inj h).symm⟩
  | constant name => exact ⟨_, (Option.some.inj h).symm⟩
  | binary op left right =>
    obtain ⟨_, _, _, _, rfl⟩ := encode?_binary_eq_some_iff.1 h
    exact ⟨_, rfl⟩
  | unary op arg =>
    obtain ⟨_, _, rfl⟩ := encode?_unary_eq_some_iff.1 h
    exact ⟨_, rfl⟩
  | call name args =>
    obtain ⟨_, _, rfl⟩ := encode?_call_eq_some_iff.1 h
    exact ⟨_, rfl⟩
  | blank => cases h

/-- **Equal records name the same type**, whatever other fields they have in common. -/
theorem typeName_eq_of_equals (ha : a.encode? = some v) (hb : b.encode? = some w)
    (h : v.equals w = true) : a.typeName = b.typeName := by
  obtain ⟨fields, rfl⟩ := exists_record_of_encode? ha
  obtain ⟨others, rfl⟩ := exists_record_of_encode? hb
  have htype := (Value.equals_record_iff.1 h).2 _ List.mem_cons_self
  simpa [Fields.get?_cons] using htype

/-! ## Equal records -/

/-- If each of several trees is told from every other tree, then so are all of them from every other
list, also from one of another length. -/
theorem equals_encodeAll?_iff
    (ih : ∀ s ∈ trees, ∀ t v w, s.encode? = some v → t.encode? = some w →
      (v.equals w = true ↔ s.same t = true))
    (hv : encodeAll? trees = some vs) (hw : encodeAll? others = some ws) :
    (Value.list vs).equals (.list ws) = true ↔ sameAll trees others = true := by
  induction trees generalizing others vs ws with
  | nil =>
    obtain rfl := Option.some.inj hv
    cases others with
    | nil =>
      obtain rfl := Option.some.inj hw
      exact iff_of_true rfl rfl
    | cons t rest =>
      obtain ⟨_, _, _, _, rfl⟩ := encodeAll?_cons_eq_some_iff.1 hw
      exact iff_of_false nofun nofun
  | cons s rest ihrest =>
    obtain ⟨x, hx, xs, hxs, rfl⟩ := encodeAll?_cons_eq_some_iff.1 hv
    cases others with
    | nil =>
      obtain rfl := Option.some.inj hw
      exact iff_of_false nofun nofun
    | cons t others =>
      obtain ⟨y, hy, ys, hys, rfl⟩ := encodeAll?_cons_eq_some_iff.1 hw
      obtain ⟨ihfirst, ihothers⟩ := List.forall_mem_cons.1 ih
      rw [Value.equals_list_cons, sameAll, Bool.and_eq_true, Bool.and_eq_true,
        ihfirst t x y hx hy, ihrest ihothers hxs hys]

/-- **The records of two trees are equal exactly if the trees are.** -/
theorem equals_encode?_iff (ha : a.encode? = some v) (hb : b.encode? = some w) :
    v.equals w = true ↔ a.same b = true := by
  induction a using inductionOnChildren generalizing b v w with
  | step a ih =>
    by_cases htype : a.typeName = b.typeName
    case neg =>
      exact iff_of_false (mt (typeName_eq_of_equals ha hb) htype) (mt typeName_eq_of_same htype)
    cases a, b, htype using casesOnType with
    | number x y =>
      obtain rfl := Option.some.inj ha
      obtain rfl := Option.some.inj hb
      simp [Value.equals_record_iff, Fields.get?_cons, same]
    | parameter m n =>
      obtain rfl := Option.some.inj ha
      obtain rfl := Option.some.inj hb
      simp [Value.equals_record_iff, Fields.get?_cons, same]
    | constant m n =>
      obtain rfl := Option.some.inj ha
      obtain rfl := Option.some.inj hb
      simp [Value.equals_record_iff, Fields.get?_cons, same]
    | binary o l r p m s =>
      obtain ⟨x, hx, y, hy, rfl⟩ := encode?_binary_eq_some_iff.1 ha
      obtain ⟨x', hx', y', hy', rfl⟩ := encode?_binary_eq_some_iff.1 hb
      have hleft := ih l (by simp [children]) hx hx'
      have hright := ih r (by simp [children]) hy hy'
      simp [Value.equals_record_iff, Fields.get?_cons, same, hleft, hright, and_assoc]
    | unary o s p t =>
      obtain ⟨x, hx, rfl⟩ := encode?_unary_eq_some_iff.1 ha
      obtain ⟨y, hy, rfl⟩ := encode?_unary_eq_some_iff.1 hb
      have harg := ih s (by simp [children]) hx hy
      simp [Value.equals_record_iff, Fields.get?_cons, same, harg]
    | call m args n others =>
      obtain ⟨xs, hxs, rfl⟩ := encode?_call_eq_some_iff.1 ha
      obtain ⟨ys, hys, rfl⟩ := encode?_call_eq_some_iff.1 hb
      have hargs : (Value.list xs).equals (.list ys) = true ↔ sameAll args others = true :=
        equals_encodeAll?_iff (fun s hs t v w => ih s hs) hxs hys
      simp [Value.equals_record_iff, Fields.get?_cons, same, hargs]
    | blank => cases ha

/-! ## Equal trees -/

mutual

/-- The tree with the sign taken from every zero. -/
def unsigned : Tree → Tree
  | number x => number (Binary64.unsigned x)
  | parameter name => parameter name
  | constant name => constant name
  | binary op left right => binary op left.unsigned right.unsigned
  | unary op arg => unary op arg.unsigned
  | call name args => call name (unsignedAll args)
  | blank => blank

/-- Several trees with the sign taken from every zero. -/
def unsignedAll : List Tree → List Tree
  | [] => []
  | t :: rest => t.unsigned :: unsignedAll rest

end

theorem typeName_unsigned (t : Tree) : t.unsigned.typeName = t.typeName := by
  cases t <;> rfl

/-- The node is of some kind, and if it is a number then it is not `nan`. -/
def Plain : Tree → Prop
  | number x => x.isNaN = false
  | blank => False
  | _ => True

theorem sameAll_iff_unsignedAll_eq
    (ih : ∀ s ∈ trees, ∀ t, s.same t = true ↔ s.unsigned = t.unsigned) (others : List Tree) :
    sameAll trees others = true ↔ unsignedAll trees = unsignedAll others := by
  induction trees generalizing others with
  | nil => cases others <;> simp [sameAll, unsignedAll]
  | cons s rest ihrest =>
    obtain ⟨ihfirst, ihothers⟩ := List.forall_mem_cons.1 ih
    cases others with
    | nil => simp [sameAll, unsignedAll]
    | cons t others =>
      rw [sameAll, unsignedAll, unsignedAll, Bool.and_eq_true, List.cons.injEq, ihfirst,
        ihrest ihothers]

/-- **Trees without `nan` are equal exactly if they are identical up to the signs of zeros.** -/
theorem same_iff_unsigned_eq (ha : a.Everywhere Plain) (b : Tree) :
    a.same b = true ↔ a.unsigned = b.unsigned := by
  induction a using inductionOnChildren generalizing b with
  | step a ih =>
    obtain ⟨hroot, hbelow⟩ := everywhere_iff.1 ha
    have hchild (child) (h : child ∈ a.children) := ih child h (hbelow child h)
    by_cases htype : a.typeName = b.typeName
    case neg =>
      refine iff_of_false (mt typeName_eq_of_same htype) fun h => htype ?_
      rw [← typeName_unsigned a, h, typeName_unsigned]
    cases a, b, htype using casesOnType with
    | number x y => rw [same, unsigned, unsigned, number.injEq, Binary64.beq_iff_unsigned_eq hroot]
    | parameter m n => simp [same, unsigned]
    | constant m n => simp [same, unsigned]
    | binary o l r p m s =>
      have hleft := hchild l (by simp [children])
      have hright := hchild r (by simp [children])
      simp [same, unsigned, hleft, hright, and_assoc]
    | unary o s p t =>
      have harg := hchild s (by simp [children])
      simp [same, unsigned, harg]
    | call m args n others =>
      have hargs : sameAll args others = true ↔ unsignedAll args = unsignedAll others :=
        sameAll_iff_unsignedAll_eq hchild others
      simp [same, unsigned, hargs]
    | blank => exact iff_of_true rfl rfl

/-! ## Trees without a record -/

theorem encodeAll?_eq_none_iff : encodeAll? trees = none ↔ ∃ t ∈ trees, t.encode? = none := by
  induction trees with
  | nil => simp [encodeAll?]
  | cons t rest ih =>
    rw [List.exists_mem_cons_iff, ← ih, encodeAll?]
    cases t.encode? <;> cases encodeAll? rest <;> simp

/-- A tree has no record if its root is of no kind or one of its children has none. -/
theorem encode?_eq_none_iff :
    t.encode? = none ↔ t = blank ∨ ∃ child ∈ t.children, child.encode? = none := by
  cases t with
  | number x => simp [encode?, children]
  | parameter name => simp [encode?, children]
  | constant name => simp [encode?, children]
  | binary op left right =>
    cases hleft : left.encode? <;> cases hright : right.encode? <;>
      simp [encode?, children, hleft, hright]
  | unary op arg => cases harg : arg.encode? <;> simp [encode?, children, harg]
  | call name args =>
    rw [children, ← encodeAll?_eq_none_iff]
    cases hargs : encodeAll? args <;> simp [encode?, hargs]
  | blank => exact iff_of_true rfl (.inl rfl)

/-- **A tree has no record exactly if the walk comes to a node of no kind.** -/
theorem encode?_eq_none_iff_blank_mem : t.encode? = none ↔ blank ∈ t.walk := by
  induction t using inductionOnChildren with
  | step t ih =>
    rw [encode?_eq_none_iff, walk_eq, List.mem_cons, List.mem_flatMap, @eq_comm _ t]
    exact or_congr_right (exists_congr fun child => and_congr_right (ih child))

/-! ## Documents -/

theorem exists_document? (h : t.Everywhere Plain) : ∃ v, t.document? = some v := by
  cases hencode : t.encode? with
  | none => exact (h blank (encode?_eq_none_iff_blank_mem.1 hencode)).elim
  | some root => exact ⟨_, by rw [document?, hencode, Option.map_some]⟩

theorem equals_document?_iff (ha : a.document? = some v) (hb : b.document? = some w) :
    v.equals w = true ↔ a.same b = true := by
  obtain ⟨x, hx, rfl⟩ := Option.map_eq_some_iff.1 ha
  obtain ⟨y, hy, rfl⟩ := Option.map_eq_some_iff.1 hb
  rw [← equals_encode?_iff hx hy]
  simp [Value.equals_record_iff, Fields.get?_cons]

/-- **The format keeps trees apart.**  Trees of numbers, names, operations and calls without `nan`
have documents, which are equal exactly if the trees are, that is, if these are identical up to the
signs of zeros.  A tree has no document exactly if there is a node of no kind on the walk through
it. -/
theorem document_faithful :
    (∀ a b : Tree, a.Everywhere Plain → b.Everywhere Plain →
      ∃ v w, a.document? = some v ∧ b.document? = some w ∧
        (v.equals w = true ↔ a.same b = true) ∧
        (a.same b = true ↔ a.unsigned = b.unsigned)) ∧
    ∀ t : Tree, t.document? = none ↔ blank ∈ t.walk := by
  constructor
  · intro a b ha hb
    obtain ⟨v, hv⟩ := exists_document? ha
    obtain ⟨w, hw⟩ := exists_document? hb
    exact ⟨v, w, hv, hw, equals_document?_iff hv hw, same_iff_unsigned_eq ha b⟩
  · intro t
    rw [document?, Option.map_eq_none_iff, encode?_eq_none_iff_blank_mem]

/-- A zero and its negative make no difference, but it makes one whether a name is that of a
parameter or of a constant. -/
theorem document_faithful_zero :
    let a := call "pow" [number (-0.0), parameter "e"]
    let b := call "pow" [number 0.0, parameter "e"]
    let c := call "pow" [number 0.0, constant "e"]
    (a.Everywhere Plain ∧ b.Everywhere Plain ∧ c.Everywhere Plain) ∧
      ∃ u v w, a.document? = some u ∧ b.document? = some v ∧ c.document? = some w ∧
        u.equals v = true ∧ v.equals w = false := by
  intro a b c
  have hnegative : (-0.0 : Float) ≠ Float.nan := by decide
  have hpositive : (0.0 : Float) ≠ Float.nan := by decide
  have ha : a.Everywhere Plain := by simp [a, Everywhere, walk_eq, children, Plain, hnegative]
  have hb : b.Everywhere Plain := by simp [b, Everywhere, walk_eq, children, Plain, hpositive]
  have hc : c.Everywhere Plain := by simp [c, Everywhere, walk_eq, children, Plain, hpositive]
  obtain ⟨u, v, hu, hv, huv, -⟩ := document_faithful.1 a b ha hb
  obtain ⟨v', w, hv', hw, hvw, -⟩ := document_faithful.1 b c hb hc
  obtain rfl := Option.some.inj (hv.symm.trans hv')
  have hsame : a.same b = true := by decide +kernel
  have hdifferent : ¬ b.same c = true := by decide +kernel
  exact ⟨⟨ha, hb, hc⟩, u, v, w, hu, hv, hw, huv.2 hsame,
    Bool.eq_false_iff.2 (mt hvw.1 hdifferent)⟩

end Tree
end SpaceCurve
