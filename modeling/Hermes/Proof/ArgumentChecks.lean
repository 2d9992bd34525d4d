import Hermes.Spec.McpServer

/-!
# When the arguments of a tool can be checked

`validate_arguments` takes the schema of a tool as it is. What it cannot read raises.

* `Checkable`: what the check asks of the schema, for some arguments.
* `checkArgument_raises_iff`: one argument.
* `validateArguments_raises_iff`: the check raises exactly when it is asked too much.
-/

namespace Hermes

namespace McpServer

variable {schema args : List (PyStr × Json)}

/-- `schema.get("required", [])`. -/
def requiredOf (schema : List (PyStr × Json)) : Json := (schema.lookup (py "required")).getD (.arr [])

/-- `schema.get("properties", {})`. -/
def propertiesOf (schema : List (PyStr × Json)) : Json :=
  (schema.lookup (py "properties")).getD (.obj [])

/-- A list, an object or a text. -/
def Iterable : Json → Prop
  | .arr _ => True
  | .obj _ => True
  | .str _ => True
  | _ => False

/-- What a loop over the value runs through. -/
def entriesOf : Json → List Json
  | .arr xs => xs
  | .obj kvs => kvs.map fun kv => .str kv.1
  | .str s => s.map fun ch => .str [ch]
  | _ => []

/-- There is an argument with this name. -/
def Present (args : List (PyStr × Json)) (r : Json) : Prop := ∃ kv ∈ args, r.isStr kv.1 = true

/-- The properties of the schema cannot be asked for the name, or have something under it that is no
object, or that declares a type that is a list or an object. -/
def Unreadable (schema : List (PyStr × Json)) (name : PyStr) : Prop :=
  match propertiesOf schema with
  | .obj props => ∃ prop, props.lookup name = some prop ∧
      ∀ kvs, prop = .obj kvs → (Json.field kvs "type").truthy = true ∧
        (Json.field kvs "type").hashable = false
  | .arr xs => ∃ x ∈ xs, x.isStr name = true
  | .str s => name <:+: s
  | _ => True

/-- The arguments can be checked: up to the first required name that is missing, the names are no
lists or objects, and, if none is missing, the properties can be read up to the first argument that
does not pass. -/
structure Checkable (schema args : List (PyStr × Json)) : Prop where
  iterable : Iterable (requiredOf schema)
  required : ∀ before r after, entriesOf (requiredOf schema) = before ++ r :: after →
    (∀ q ∈ before, Present args q) → r.hashable = true
  readable : (∀ q ∈ entriesOf (requiredOf schema), Present args q) →
    ∀ before kv after, args = before ++ kv :: after →
      (∀ q ∈ before, checkArgument schema q = .ok true) → ¬ Unreadable schema kv.1

theorem checkArgument_eq (kv : PyStr × Json) : checkArgument schema kv =
    match contains (propertiesOf schema) kv.1 with
    | .error e => (.error e : Except McpExc Bool)
    | .ok false => match Json.field schema "additionalProperties" with
      | .bool false => .ok false
      | _ => .ok true
    | .ok true => match index (propertiesOf schema) kv.1 with
      | .error e => .error e
      | .ok (.obj prop) => checkType (Json.field prop "type") kv.2
      | .ok v => .error (noAttribute v "get") := rfl

theorem validateArguments_eq (tool : Tool) : validateArguments tool (.obj args) =
    match iterate (requiredOf tool.inputSchema) with
    | .error e => (.error e : Except McpExc Bool)
    | .ok required => match Loops.allPass (checkRequired args) required with
      | .error e => .error e
      | .ok false => .ok false
      | .ok true => Loops.allPass (checkArgument tool.inputSchema) args := rfl

theorem checkRequired_true_iff (r : Json) : checkRequired args r = .ok true ↔ Present args r := by
  unfold checkRequired Present
  cases hr : r.hashable with
  | true => simp
  | false =>
    refine iff_of_false (by simp) ?_
    rintro ⟨kv, -, hkv⟩
    -- what is a text has a hash
    cases r <;> simp [Json.hashable, Json.isStr] at hr hkv

theorem checkRequired_raises_iff (r : Json) :
    (∃ e, checkRequired args r = .error e) ↔ r.hashable = false := by
  unfold checkRequired
  cases r.hashable with
  | true => simp
  | false => simp

theorem checkType_raises_iff (expected val : Json) :
    (∃ e, checkType expected val = .error e) ↔
      expected.truthy = true ∧ expected.hashable = false := by
  unfold checkType
  cases htruthy : expected.truthy with
  | false => simp
  | true =>
    cases hhash : expected.hashable with
    | false => simp
    | true =>
      refine iff_of_false ?_ (by simp)
      rintro ⟨e, he⟩
      simp only [if_true] at he
      split at he
      · split at he
        · cases he
        · cases he
      · cases he

/-- **An argument breaks the check** exactly when the properties are unreadable for its name. -/
theorem checkArgument_raises_iff (kv : PyStr × Json) :
    (∃ e, checkArgument schema kv = .error e) ↔ Unreadable schema kv.1 := by
  have hpass : ∀ v : Json, ¬ ∃ e : McpExc, (match v with
      | .bool false => (.ok false : Except McpExc Bool)
      | _ => .ok true) = .error e := by
    rintro v ⟨e, he⟩
    split at he
    · cases he
    · cases he
  rw [checkArgument_eq]
  unfold Unreadable
  cases hprops : propertiesOf schema with
  | null => simp [contains]
  | bool b => simp [contains]
  | int n => simp [contains]
  | float x => simp [contains]
  | str s =>
    by_cases hin : kv.1 <:+: s
    · simp [contains, index, hin]
    · simp only [contains, hin, decide_false]
      exact iff_of_false (hpass _) not_false
  | arr xs =>
    cases hin : xs.any (·.isStr kv.1) with
    | true =>
      refine iff_of_true (by simp [contains, index, hin]) ?_
      exact List.any_eq_true.1 hin
    | false =>
      simp only [contains, hin]
      refine iff_of_false (hpass _) ?_
      simpa using hin
  | obj props =>
    cases hin : props.lookup kv.1 with
    | none =>
      simp only [contains, hin, Option.isSome_none]
      exact iff_of_false (hpass _) (by simp)
    | some prop =>
      simp only [contains, index, hin, Option.isSome_some, Option.getD_some, Option.some.injEq,
        exists_eq_left']
      cases prop with
      | obj kvs => simp [checkType_raises_iff]
      | _ => simp

/-- **The validation raises** exactly when the arguments cannot be checked. -/
theorem validateArguments_raises_iff (tool : Tool) (args : List (PyStr × Json)) :
    (∃ e, validateArguments tool (.obj args) = .error e) ↔ ¬ Checkable tool.inputSchema args := by
  have hiterate : ∀ v : Json, (Iterable v ∧ iterate v = .ok (entriesOf v)) ∨
      (¬ Iterable v ∧ ∃ e, iterate v = .error e) := by
    intro v
    cases v <;> simp [Iterable, iterate, entriesOf]
  rw [validateArguments_eq]
  obtain ⟨hit, hit'⟩ | ⟨hit, e, he⟩ := hiterate (requiredOf tool.inputSchema)
  · rw [hit']
    simp only
    have hrequired := Loops.allPass_raises_iff (p := checkRequired args)
      (entriesOf (requiredOf tool.inputSchema))
    have hpresent := Loops.allPass_true_iff (p := checkRequired args)
      (entriesOf (requiredOf tool.inputSchema))
    simp only [checkRequired_true_iff] at hpresent
    cases hloop : Loops.allPass (checkRequired args) (entriesOf (requiredOf tool.inputSchema)) with
    | error e =>
      refine iff_of_true ⟨e, rfl⟩ fun hcheck => ?_
      obtain ⟨before, r, after, hsplit, hbefore, hr⟩ := hrequired.1 ⟨e, hloop⟩
      have hhash := hcheck.required before r after hsplit fun q hq =>
        (checkRequired_true_iff q).1 (hbefore q hq)
      rw [(checkRequired_raises_iff r).1 hr] at hhash
      cases hhash
    | ok passed =>
      -- the first loop has come to a verdict
      have hreq : ∀ before r after, entriesOf (requiredOf tool.inputSchema) = before ++ r :: after →
          (∀ q ∈ before, Present args q) → r.hashable = true := by
        intro before r after hsplit hbefore
        by_contra hhash
        have hraises : ∃ e, checkRequired args r = .error e :=
          (checkRequired_raises_iff r).2 (by simpa using hhash)
        obtain ⟨e, he⟩ := hrequired.2 ⟨before, r, after, hsplit,
          fun q hq => (checkRequired_true_iff q).2 (hbefore q hq), hraises⟩
        rw [hloop] at he
        cases he
      cases passed with
      | false =>
        refine iff_of_false (by simp) (not_not.2 ⟨hit, hreq, fun hall => ?_⟩)
        rw [hpresent.2 hall] at hloop
        cases hloop
      | true =>
        have hall := hpresent.1 hloop
        simp only
        rw [Loops.allPass_raises_iff]
        constructor
        · rintro ⟨before, kv, after, hsplit, hbefore, hraises⟩ hcheck
          exact hcheck.readable hall before kv after hsplit hbefore
            ((checkArgument_raises_iff kv).1 hraises)
        · intro hnot
          by_contra hno
          refine hnot ⟨hit, hreq, fun _ before kv after hsplit hbefore hun => hno ?_⟩
          exact ⟨before, kv, after, hsplit, hbefore, (checkArgument_raises_iff kv).2 hun⟩
  · rw [he]
    exact iff_of_true ⟨e, rfl⟩ fun hcheck => hit hcheck.iterable

end McpServer

/-!
## Arguments of declared types

A schema of the common subset: an object with properties of the seven types of JSON, some of them
required, and maybe no others. `validate_arguments` asks Python for the types, where a `bool` is an
`int`, and knows no type `null`.

* `SchemaType`, `SchemaType.Holds`: the types of JSON, and their values.
* `Supported`, `Valid`: the schemas of the subset, and the arguments that they allow.
* `validateArguments_true_iff`: what the check lets through.
* `valid_exact_iff`: when the check is right about the arguments.
-/

namespace McpServer

/-! ## The types of JSON -/

inductive SchemaType where
  | string
  | number
  | integer
  | boolean
  | object
  | array
  | null
  deriving DecidableEq, Repr

namespace SchemaType

def name : SchemaType → PyStr
  | string => py "string"
  | number => py "number"
  | integer => py "integer"
  | boolean => py "boolean"
  | object => py "object"
  | array => py "array"
  | null => py "null"

theorem name_injective {s t : SchemaType} (h : s.name = t.name) : s = t := by
  cases s <;> cases t <;> first | rfl | exact absurd h (by decide)

/-- The value has the type. Whether a number such as `1.0` is an integer is settled differently by
the drafts of JSON Schema: `whole` is a reading. -/
def Holds (whole : PyFloat → Prop) : SchemaType → Json → Prop
  | string, .str _ => True
  | number, .int _ => True
  | number, .float _ => True
  | integer, .int _ => True
  | integer, .float x => whole x
  | boolean, .bool _ => True
  | object, .obj _ => True
  | array, .arr _ => True
  | null, .null => True
  | _, _ => False

/-- The type is not that of the value, but the check takes it for such: a boolean as a number, and
anything as `null`. -/
def Lax : SchemaType → Json → Prop
  | number, .bool _ => True
  | integer, .bool _ => True
  | null, .null => False
  | null, _ => True
  | _, _ => False

/-- The type is that of the value, but the check does not take it for such: a `float` that counts as
an integer. -/
def Strict (whole : PyFloat → Prop) : SchemaType → Json → Prop
  | integer, .float x => whole x
  | _, _ => False

end SchemaType

/-! ## Schemas and arguments -/

variable {schema args : List (PyStr × Json)} {whole : PyFloat → Prop}

/-- The schema has the property, with this type. -/
def Declares (schema : List (PyStr × Json)) (key : PyStr) (t : SchemaType) : Prop :=
  ∃ props kvs, propertiesOf schema = .obj props ∧ props.lookup key = some (.obj kvs) ∧
    Json.field kvs "type" = .str t.name

/-- The property is not in the schema. -/
def Undeclared (schema : List (PyStr × Json)) (key : PyStr) : Prop := ∀ t, ¬ Declares schema key t

/-- A schema of the subset. -/
structure Supported (schema : List (PyStr × Json)) : Prop where
  type : Json.field schema "type" = .str (py "object")
  properties : ∃ props, propertiesOf schema = .obj props ∧
    ∀ key prop, props.lookup key = some prop →
      ∃ kvs, ∃ t : SchemaType, prop = .obj kvs ∧ Json.field kvs "type" = .str t.name
  required : ∃ names : List PyStr, requiredOf schema = .arr (names.map .str)

/-- There is a value for each key that is required, and no undeclared key where none is allowed. -/
structure KeysFit (schema args : List (PyStr × Json)) : Prop where
  required : ∀ names : List PyStr, requiredOf schema = .arr (names.map .str) →
    ∀ key ∈ names, ∃ val, (key, val) ∈ args
  additional : Json.field schema "additionalProperties" = .bool false →
    ∀ kv ∈ args, ¬ Undeclared schema kv.1

/-- The schema allows the arguments. -/
structure Valid (whole : PyFloat → Prop) (schema args : List (PyStr × Json)) : Prop where
  keys : KeysFit schema args
  types : ∀ kv ∈ args, ∀ t, Declares schema kv.1 t → t.Holds whole kv.2

/-! ## The check of one argument -/

/-- **A type** that the check sees in a value. -/
theorem checkType_true_iff (whole : PyFloat → Prop) (t : SchemaType) (val : Json) :
    checkType (.str t.name) val = .ok true ↔ t.Lax val ∨ t.Holds whole val ∧ ¬ t.Strict whole val := by
  -- the values that are let through, by the right type or another, and those that are not
  cases t <;> cases val <;> first
    | exact iff_of_true rfl (.inr ⟨trivial, not_false⟩)
    | exact iff_of_true rfl (.inl trivial)
    | exact iff_of_false (fun h => Bool.false_ne_true (Except.ok.inj h))
        fun h => h.elim id fun h => h.2 h.1

/-- A property has one type. -/
theorem Declares.unique {key : PyStr} {s t : SchemaType} (hs : Declares schema key s)
    (ht : Declares schema key t) : s = t := by
  obtain ⟨props, kvs, hprops, hlookup, hname⟩ := hs
  obtain ⟨props', kvs', hprops', hlookup', hname'⟩ := ht
  rw [hprops] at hprops'
  cases hprops'
  rw [hlookup] at hlookup'
  cases hlookup'
  rw [hname, Json.str.injEq] at hname'
  exact SchemaType.name_injective hname'

theorem checkArgument_of_declares {kv : PyStr × Json} {t : SchemaType}
    (h : Declares schema kv.1 t) : checkArgument schema kv = checkType (.str t.name) kv.2 := by
  obtain ⟨props, kvs, hprops, hlookup, hname⟩ := h
  rw [checkArgument_eq]
  simp only [hprops, contains, index, hlookup, Option.isSome_some, Option.getD_some, hname]

theorem checkArgument_of_undeclared (hschema : Supported schema) {kv : PyStr × Json}
    (h : Undeclared schema kv.1) : checkArgument schema kv = .ok true ↔
      Json.field schema "additionalProperties" ≠ .bool false := by
  obtain ⟨props, hprops, hentries⟩ := hschema.properties
  have hlookup : props.lookup kv.1 = none := by
    by_contra hsome
    obtain ⟨prop, hprop⟩ := Option.ne_none_iff_exists'.1 hsome
    obtain ⟨kvs, t, rfl, hname⟩ := hentries kv.1 prop hprop
    exact h t ⟨props, kvs, hprops, hprop, hname⟩
  rw [checkArgument_eq]
  simp only [hprops, contains, hlookup, Option.isSome_none]
  constructor
  · intro hok hfalse
    rw [hfalse] at hok
    cases hok
  · intro hne
    split
    · rename_i heq
      exact absurd heq hne
    · rfl

/-! ## The whole check -/

/-- **What the check lets through**: arguments with the right keys, none of them of a type that the
check does not see in it. -/
theorem validateArguments_true_iff (whole : PyFloat → Prop) (tool : Tool)
    (hschema : Supported tool.inputSchema) :
    validateArguments tool (.obj args) = .ok true ↔ KeysFit tool.inputSchema args ∧
      ∀ kv ∈ args, ∀ t, Declares tool.inputSchema kv.1 t →
        t.Lax kv.2 ∨ t.Holds whole kv.2 ∧ ¬ t.Strict whole kv.2 := by
  obtain ⟨names, hnames⟩ := hschema.required
  have hpresent : ∀ key : PyStr, Present args (.str key) ↔ ∃ val, (key, val) ∈ args := by
    intro key
    constructor
    · rintro ⟨kv, hkv, hstr⟩
      have hkey : key = kv.1 := of_decide_eq_true hstr
      exact ⟨kv.2, hkey ▸ hkv⟩
    · rintro ⟨val, hval⟩
      exact ⟨(key, val), hval, decide_eq_true rfl⟩
  have hrequired : Loops.allPass (checkRequired args) (names.map .str) = .ok true ↔
      ∀ key ∈ names, ∃ val, (key, val) ∈ args := by
    rw [Loops.allPass_true_iff]
    simp only [checkRequired_true_iff, List.forall_mem_map, hpresent]
  have hrun : validateArguments tool (.obj args) = .ok true ↔
      Loops.allPass (checkRequired args) (names.map .str) = .ok true ∧
        Loops.allPass (checkArgument tool.inputSchema) args = .ok true := by
    rw [validateArguments_eq, hnames]
    simp only [iterate]
    cases Loops.allPass (checkRequired args) (names.map .str) with
    | error e => simp
    | ok passed => cases passed <;> simp
  rw [hrun, hrequired, Loops.allPass_true_iff]
  constructor
  · rintro ⟨hkeys, hargs⟩
    refine ⟨⟨fun names' hnames' => ?_, fun hfalse kv hkv hun => ?_⟩, fun kv hkv t ht => ?_⟩
    · rw [hnames] at hnames'
      have heq : names = names' :=
        List.map_injective_iff.2 (fun a b hab => Json.str.inj hab) (Json.arr.inj hnames')
      exact heq ▸ hkeys
    · exact (checkArgument_of_undeclared hschema hun).1 (hargs kv hkv) hfalse
    · have hchecked := hargs kv hkv
      rw [checkArgument_of_declares ht] at hchecked
      exact (checkType_true_iff whole t kv.2).1 hchecked
  · rintro ⟨hfit, htypes⟩
    refine ⟨hfit.required names hnames, fun kv hkv => ?_⟩
    by_cases hdecl : ∃ t, Declares tool.inputSchema kv.1 t
    · obtain ⟨t, ht⟩ := hdecl
      rw [checkArgument_of_declares ht]
      exact (checkType_true_iff whole t kv.2).2 (htypes kv hkv t ht)
    · have hun : Undeclared tool.inputSchema kv.1 := not_exists.1 hdecl
      exact (checkArgument_of_undeclared hschema hun).2 fun hfalse =>
        hfit.additional hfalse kv hkv hun

/-- A value that is not of its type does not pass for it by being strict about it. -/
theorem SchemaType.Strict.holds {t : SchemaType} {val : Json} (h : t.Strict whole val) :
    t.Holds whole val := by
  cases t <;> cases val <;> first | exact h | exact absurd h not_false

theorem SchemaType.Lax.not_holds {t : SchemaType} {val : Json} (h : t.Lax val) :
    ¬ t.Holds whole val := by
  cases t <;> cases val <;> first | exact not_false | exact absurd h not_false

/-- **The verdict is right** exactly when the arguments fail for some other reason, or a value that
is wrongly let through comes with one that is wrongly refused. -/
theorem valid_exact_iff (whole : PyFloat → Prop) (tool : Tool) (args : List (PyStr × Json))
    (hschema : Supported tool.inputSchema) :
    (validateArguments tool (.obj args) = .ok true ↔ Valid whole tool.inputSchema args) ↔
      (KeysFit tool.inputSchema args →
        (∀ kv ∈ args, ∀ t, Declares tool.inputSchema kv.1 t → t.Lax kv.2 ∨ t.Holds whole kv.2) →
        ((∃ kv ∈ args, ∃ t, Declares tool.inputSchema kv.1 t ∧ t.Lax kv.2) ↔
          ∃ kv ∈ args, ∃ t, Declares tool.inputSchema kv.1 t ∧ t.Strict whole kv.2)) := by
  rw [validateArguments_true_iff whole tool hschema]
  constructor
  · intro hexact hfit hall
    -- what is right about all of them is that no value is wrongly let through, or none refused
    have hnone : (¬ ∃ kv ∈ args, ∃ t, Declares tool.inputSchema kv.1 t ∧ t.Strict whole kv.2) ↔
        ¬ ∃ kv ∈ args, ∃ t, Declares tool.inputSchema kv.1 t ∧ t.Lax kv.2 := by
      constructor
      · rintro hstrict ⟨kv, hkv, t, ht, hlax⟩
        have hvalid := hexact.1 ⟨hfit, fun kv hkv t ht => (hall kv hkv t ht).imp_right fun hholds =>
          ⟨hholds, fun hs => hstrict ⟨kv, hkv, t, ht, hs⟩⟩⟩
        exact hlax.not_holds (hvalid.types kv hkv t ht)
      · rintro hlax ⟨kv, hkv, t, ht, hstrict⟩
        have hvalid : Valid whole tool.inputSchema args := ⟨hfit, fun kv hkv t ht =>
          (hall kv hkv t ht).resolve_left fun hl => hlax ⟨kv, hkv, t, ht, hl⟩⟩
        rcases (hexact.2 hvalid).2 kv hkv t ht with hl | ⟨-, hs⟩
        · exact hl.not_holds hstrict.holds
        · exact hs hstrict
    exact (not_iff_not.1 hnone).symm
  · intro hbalanced
    constructor
    · rintro ⟨hfit, htypes⟩
      have hstrict : ¬ ∃ kv ∈ args, ∃ t, Declares tool.inputSchema kv.1 t ∧ t.Strict whole kv.2 := by
        rintro ⟨kv, hkv, t, ht, hs⟩
        rcases htypes kv hkv t ht with hl | ⟨-, hns⟩
        · exact hl.not_holds hs.holds
        · exact hns hs
      have hiff := hbalanced hfit fun kv hkv t ht => (htypes kv hkv t ht).imp_right And.left
      refine ⟨hfit, fun kv hkv t ht => ?_⟩
      exact ((htypes kv hkv t ht).resolve_left fun hl => hstrict (hiff.1 ⟨kv, hkv, t, ht, hl⟩)).1
    · rintro ⟨hfit, htypes⟩
      have hlax : ¬ ∃ kv ∈ args, ∃ t, Declares tool.inputSchema kv.1 t ∧ t.Lax kv.2 := by
        rintro ⟨kv, hkv, t, ht, hl⟩
        exact hl.not_holds (htypes kv hkv t ht)
      have hiff := hbalanced hfit fun kv hkv t ht => .inr (htypes kv hkv t ht)
      exact ⟨hfit, fun kv hkv t ht => .inr ⟨htypes kv hkv t ht, fun hs =>
        hlax (hiff.2 ⟨kv, hkv, t, ht, hs⟩)⟩⟩

/-- A tool with one integer parameter, that is required and the only one. -/
def counterTool : Tool where
  name := py "count"
  capability := py "test.count"
  inputSchema := [(py "type", .str (py "object")),
    (py "properties", .obj [(py "n", .obj [(py "type", .str (py "integer"))])]),
    (py "required", .arr [.str (py "n")]), (py "additionalProperties", .bool false)]

theorem counterTool_supported : Supported counterTool.inputSchema where
  type := rfl
  properties := by
    refine ⟨[(py "n", .obj [(py "type", .str (py "integer"))])], rfl, fun key prop h => ?_⟩
    rw [List.lookup_cons] at h
    split at h
    · exact ⟨_, .integer, (Option.some.inj h).symm, rfl⟩
    · cases h
  required := ⟨[py "n"], rfl⟩

/-- `validate_arguments({"n": 3})`. -/
theorem valid_exact_three :
    validateArguments counterTool (.obj [(py "n", .int 3)]) = .ok true ↔
      Valid (fun _ => False) counterTool.inputSchema [(py "n", .int 3)] := by
  refine (valid_exact_iff (fun _ => False) counterTool [(py "n", .int 3)]
    counterTool_supported).2 fun _ _ => ?_
  have hinteger : ∀ t, Declares counterTool.inputSchema (py "n") t → t = .integer := fun t ht =>
    ht.unique ⟨_, _, rfl, rfl, rfl⟩
  refine iff_of_false ?_ ?_
  · rintro ⟨kv, hkv, t, ht, hlax⟩
    obtain rfl := List.mem_singleton.1 hkv
    obtain rfl := hinteger t ht
    exact hlax
  · rintro ⟨kv, hkv, t, ht, hstrict⟩
    obtain rfl := List.mem_singleton.1 hkv
    obtain rfl := hinteger t ht
    exact hstrict

/-- **A boolean passes for an integer**: `{"n": true}`. -/
theorem boolean_passes_for_integer :
    Supported counterTool.inputSchema ∧
      validateArguments counterTool (.obj [(py "n", .bool true)]) = .ok true ∧
      ∀ whole, ¬ Valid whole counterTool.inputSchema [(py "n", .bool true)] := by
  refine ⟨counterTool_supported, rfl, fun whole hvalid => ?_⟩
  exact hvalid.types (py "n", .bool true) List.mem_cons_self .integer ⟨_, _, rfl, rfl, rfl⟩

end McpServer

end Hermes
