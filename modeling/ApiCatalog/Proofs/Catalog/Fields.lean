import ApiCatalog.Catalog.Field
import ApiCatalog.Proofs.Json.Paths
import ApiCatalog.Proofs.Json.Removal

/-!
# Fields that are set and taken

What becomes of a live object when one of its fields is set or taken, in terms of what stands at the
paths before and after. `Slot.set_eq_fill` opens the accessor that sets a field, and
`Slot.set_of_blocked` and `Slot.set_of_not_blocked` are its two outcomes: a value on the way that is
no object, and then the object is as it was, or the value at its place. `Slot.guardedSet` stands for
the accessors of callers that set a field and may fail for reasons of their own, and
`Schema.access_guardedSet` says which of their failures find the object changed. Likewise
`Slot.take_of_missing` and `Slot.take_of_taken` are the two outcomes of taking a field.
-/

namespace ApiCatalog

namespace Slot

variable {ε α : Type} {object value another : Json} {path other : List String}

/-- Set a field unless a check of the slot refuses, and answer with what is made of the value from
before. Check and answer may fail with errors of their own. -/
def guardedSet (fieldError : FieldError → ε) (check : Slot → Except ε Unit) (value : Json)
    (answer : Option Json → Except ε α) : Accessor ε α := fun slot =>
  match check slot with
  | .error refusal => ⟨.error refusal, slot.object⟩
  | .ok () =>
    let accessed := set value slot
    ⟨(accessed.result.mapError fieldError).bind answer, accessed.object⟩

section Guarded

variable {slot : Slot} {fieldError : FieldError → ε} {check : Slot → Except ε Unit}
  {answer : Option Json → Except ε α}

/-- If the check refuses, the object stays as it is. -/
theorem guardedSet_of_refused {refusal : ε} (hcheck : check slot = .error refusal) :
    guardedSet fieldError check value answer slot = ⟨.error refusal, slot.object⟩ := by
  rw [guardedSet, hcheck]

/-- If the check passes, the field is set, whatever is answered then. -/
theorem guardedSet_of_passed (hcheck : check slot = .ok ()) :
    guardedSet fieldError check value answer slot =
      ⟨((set value slot).result.mapError fieldError).bind answer, (set value slot).object⟩ := by
  rw [guardedSet, hcheck]

end Guarded

/-! ## The two outcomes -/

/-- To set a field is to fill the object at its path. -/
theorem set_eq_fill (hpath : path ≠ []) (object value : Json) :
    set value ⟨object, path⟩ =
      ⟨(Json.fill path (some object) value).1.elim (.error (.notAnObject path)) .ok,
        (Json.fill path (some object) value).2⟩ := by
  rw [set, Json.set_eq_fill hpath]
  cases h : Json.fill path (some object) value with
  | mk stored after => cases stored <;> rfl

/-- Nothing is set, and nothing has changed, behind a value that is no object. -/
theorem set_of_blocked (hpath : path ≠ []) (hordered : object.Ordered)
    (hblocked : Json.Blocked (some object) path) :
    set value ⟨object, path⟩ = ⟨.error (.notAnObject path), object⟩ := by
  rw [set_eq_fill hpath, Json.fst_fill_eq_none_iff.2 hblocked,
    Json.snd_fill_of_blocked hordered hblocked]
  rfl

/-- The value is set where nothing is in the way, and the one from before is yielded. -/
theorem set_of_not_blocked (hpath : path ≠ []) (hfree : ¬ Json.Blocked (some object) path) :
    set value ⟨object, path⟩ =
      ⟨.ok (object.at? path), (Json.fill path (some object) value).2⟩ := by
  rw [set_eq_fill hpath]
  cases hstored : (Json.fill path (some object) value).1 with
  | none => exact absurd (Json.fst_fill_eq_none_iff.1 hstored) hfree
  | some old =>
      rw [Json.eq_of_fst_fill hstored]
      rfl

/-- Setting fails exactly if a value on the way is no object. -/
theorem result_set_eq_error_iff (hpath : path ≠ []) {failure : FieldError} :
    (set value ⟨object, path⟩).result = .error failure ↔
      failure = .notAnObject path ∧ Json.Blocked (some object) path := by
  have hnone : (Json.fill path (some object) value).1 = none ↔ Json.Blocked (some object) path :=
    Json.fst_fill_eq_none_iff
  rw [set_eq_fill hpath, ← hnone]
  cases (Json.fill path (some object) value).1 with
  | none => simp [eq_comm]
  | some old => simp

/-- A field that was set has a path, and nothing was in the way. -/
theorem not_blocked_of_set {old : Option Json}
    (hset : (set value ⟨object, path⟩).result = .ok old) :
    path ≠ [] ∧ ¬ Json.Blocked (some object) path := by
  have hpath : path ≠ [] := by
    rintro rfl
    cases hset
  refine ⟨hpath, fun hblocked => ?_⟩
  rw [(result_set_eq_error_iff hpath).2 ⟨rfl, hblocked⟩] at hset
  cases hset

/-- Where nothing stands nothing is taken. -/
theorem take_of_missing (hpath : path ≠ []) (hmissing : object.at? path = none) :
    (take ⟨object, path⟩ : Accessed ε (Option Json)) = ⟨.ok none, object⟩ := by
  rw [take, (Json.take_eq_none_iff hpath).2 hmissing]

/-- A value that stands at the path is taken out of the object. -/
theorem take_of_taken {old after : Json} (htaken : Json.Taken path object old after) :
    (take ⟨object, path⟩ : Accessed ε (Option Json)) = ⟨.ok (some old), after⟩ := by
  rw [take, Json.take_eq_some_iff.2 htaken]

end Slot

/-! ## Failures -/

namespace Schema

variable {ε α : Type} {object value : Json} {path : List String} (s : Schema)
  {fieldError : FieldError → ε}

/-- A field that the schema does not have is not accessed, and the object stays as it is. -/
theorem access_of_not_hasField (h : path = [] ∨ s.hasField path = false) (object : Json)
    (accessor : Accessor ε α) :
    s.access path object fieldError accessor =
      ⟨.error (fieldError (.notInSchema path s.name)), object⟩ := by
  rw [access, if_pos (by simpa using h)]

/-- A field that the schema has is left to the accessor. -/
theorem access_of_hasField (hpath : path ≠ []) (h : s.hasField path = true) (object : Json)
    (accessor : Accessor ε α) :
    s.access path object fieldError accessor = accessor ⟨object, path⟩ := by
  rw [access, if_neg (by simp [hpath, h])]

/-- An accessor that sets a field leaves the object as it was whenever it fails, unless it fails on
its own after it has set the field. -/
theorem access_guardedSet (hordered : object.Ordered) (fieldError : FieldError → ε)
    (check : Slot → Except ε Unit) (value : Json) (answer : Option Json → Except ε α) {failure : ε}
    (h : (s.access path object fieldError
      (Slot.guardedSet fieldError check value answer)).result = .error failure) :
    (s.access path object fieldError
        (Slot.guardedSet fieldError check value answer)).object = object ∧
        (failure = fieldError (.notInSchema path s.name) ∨ check ⟨object, path⟩ = .error failure ∨
          failure = fieldError (.notAnObject path)) ∨
      ∃ old, check ⟨object, path⟩ = .ok () ∧ (Slot.set value ⟨object, path⟩).result = .ok old ∧
        answer old = .error failure ∧
        (s.access path object fieldError (Slot.guardedSet fieldError check value answer)).object =
          (Slot.set value ⟨object, path⟩).object := by
  by_cases hfield : path = [] ∨ s.hasField path = false
  · rw [s.access_of_not_hasField hfield] at h ⊢
    exact .inl ⟨rfl, .inl (Except.error.inj h).symm⟩
  · obtain ⟨hpath, hhas⟩ := not_or.1 hfield
    rw [s.access_of_hasField hpath (Bool.eq_true_of_not_eq_false hhas)] at h ⊢
    cases hcheck : check ⟨object, path⟩ with
    | error refusal =>
        rw [Slot.guardedSet_of_refused hcheck] at h ⊢
        exact .inl ⟨rfl, .inr (.inl (congrArg Except.error (Except.error.inj h)))⟩
    | ok passed =>
        rw [Slot.guardedSet_of_passed hcheck] at h ⊢
        by_cases hblocked : Json.Blocked (some object) path
        · rw [Slot.set_of_blocked hpath hordered hblocked] at h ⊢
          exact .inl ⟨rfl, .inr (.inr (Except.error.inj h).symm)⟩
        · rw [Slot.set_of_not_blocked hpath hblocked] at h ⊢
          exact .inr ⟨object.at? path, rfl, rfl, h, rfl⟩

end Schema

namespace Slot

/-- Setting a field fails exactly if the object itself or a value at a place before the end of the
path is no object, and then nothing has changed and no object was made. The object is as it was
whenever access to a field for setting it fails: for a path that is empty or not in the schema, for
a refusal before the field is set, or for a value in the way. Only an error that the accessor finds
after it has set the field leaves the object with the value set. -/
theorem failed_set_changes_nothing {object : Json} (hordered : object.Ordered)
    (path : List String) (value : Json) :
    (path ≠ [] →
      ((set value ⟨object, path⟩).result = .error (.notAnObject path) ↔
        ∃ front blocking, front <+: path ∧ front ≠ path ∧ object.at? front = some blocking ∧
          blocking.members? = none) ∧
      ∀ failure, (set value ⟨object, path⟩).result = .error failure →
        failure = .notAnObject path ∧ (set value ⟨object, path⟩).object = object) ∧
    ∀ {ε α : Type} (s : Schema) (fieldError : FieldError → ε) (check : Slot → Except ε Unit)
      (answer : Option Json → Except ε α),
      let accessed := s.access path object fieldError (guardedSet fieldError check value answer)
      (path = [] ∨ s.hasField path = false →
        accessed = ⟨.error (fieldError (.notInSchema path s.name)), object⟩) ∧
      ∀ failure, accessed.result = .error failure →
        accessed.object = object ∧
            (failure = fieldError (.notInSchema path s.name) ∨
              check ⟨object, path⟩ = .error failure ∨ failure = fieldError (.notAnObject path)) ∨
          ∃ old, check ⟨object, path⟩ = .ok () ∧ (set value ⟨object, path⟩).result = .ok old ∧
            answer old = .error failure ∧
            accessed.object = (set value ⟨object, path⟩).object := by
  refine ⟨fun hpath => ⟨?_, fun failure hfailure => ?_⟩,
    fun s fieldError check answer => ⟨fun h => ?_, fun failure hfailure => ?_⟩⟩
  · rw [result_set_eq_error_iff hpath]
    exact and_iff_right rfl
  · obtain ⟨hsame, hblocked⟩ := (result_set_eq_error_iff hpath).1 hfailure
    rw [set_of_blocked hpath hordered hblocked]
    exact ⟨hsame, rfl⟩
  · exact s.access_of_not_hasField h object _
  · exact s.access_guardedSet hordered fieldError check value answer hfailure

namespace Deployment

/-- A schema that has all paths. -/
def schema : Schema := ⟨⟨[⟨"Deployment", .anything, []⟩]⟩, "Deployment"⟩

/-- An object with a number of replicas. -/
def object (replicas : Nat) : Json := .object [("spec", .object [("replicas", .ofNat replicas)])]

/-- Set the number of replicas, and reject it afterwards. -/
def rejected : Accessed (FieldError ⊕ String) Unit :=
  schema.access ["spec", "replicas"] (object 3) .inl
    (guardedSet .inl (fun _ => .ok ()) (.ofNat 5) fun _ => .error (.inr "spec/replicas"))

/-- The number of replicas is no object, so nothing is set below it, and access fails for the same
reason. -/
theorem set_below_replicas :
    (object 3).Ordered ∧
      (∃ front blocking, front <+: ["spec", "replicas", "count"] ∧
        front ≠ ["spec", "replicas", "count"] ∧ (object 3).at? front = some blocking ∧
        blocking.members? = none) ∧
      (set .null ⟨object 3, ["spec", "replicas", "count"]⟩).result =
        .error (.notAnObject ["spec", "replicas", "count"]) ∧
      (set .null ⟨object 3, ["spec", "replicas", "count"]⟩).object = object 3 := by
  have hordered : (object 3).Ordered := by
    simp only [object, Json.Ordered, Json.MembersOrdered, Json.ofNat, Keyed.Ordered]
    decide
  have hblocked : ∃ front blocking, front <+: ["spec", "replicas", "count"] ∧
      front ≠ ["spec", "replicas", "count"] ∧ (object 3).at? front = some blocking ∧
      blocking.members? = none :=
    ⟨["spec", "replicas"], .ofNat 3, by decide, by decide, rfl, rfl⟩
  have hpath := (failed_set_changes_nothing hordered ["spec", "replicas", "count"] .null).1
    (List.cons_ne_nil _ _)
  have hfails := hpath.1.2 hblocked
  exact ⟨hordered, hblocked, hfails, (hpath.2 _ hfails).2⟩

/-- The value that was set before the rejection stays in the object. -/
theorem rejected_value_stays :
    rejected.result = .error (.inr "spec/replicas") ∧ rejected.object = object 5 ∧
      object 5 ≠ object 3 := by
  refine ⟨rfl, rfl, ?_⟩
  intro h
  simp [object, Json.ofNat] at h

end Deployment

/-! ## What stands where -/

/-- A value that was set stands at the path, and what stood there before was yielded. At every path
that lies apart stands what stood there before, and what stands anywhere now and stood nowhere
before, stands on the path or within the value. At every place before the end of the path stands an
object with its members from before, or without members from before if it was missing, and the
member that leads on. Another value set at the path afterwards is as good as set there at once. -/
theorem set_replaces_one_field {object value : Json} {path : List String} {old : Option Json}
    (hset : (set value ⟨object, path⟩).result = .ok old) :
    let after := (set value ⟨object, path⟩).object
    old = object.at? path ∧
      after.at? path = some value ∧
      (∀ rest, after.at? (path ++ rest) = value.at? rest) ∧
      (∀ other, ¬ path <+: other → ¬ other <+: path → after.at? other = object.at? other) ∧
      (∀ front key rest, path = front ++ key :: rest →
        ∃ child, after.at? front = some (.object (Keyed.put key child
          (((object.at? front).bind Json.members?).getD [])))) ∧
      (∀ other, after.at? other ≠ none → object.at? other = none →
        other <+: path ∨ path <+: other) ∧
      (∀ another, set another ⟨after, path⟩ =
        ⟨.ok (some value), (set another ⟨object, path⟩).object⟩) ∧
      (object.Ordered → value.Ordered → after.Ordered) := by
  intro after
  obtain ⟨hpath, hfree⟩ := not_blocked_of_set hset
  have hafter : after = (Json.fill path (some object) value).2 :=
    congrArg Accessed.object (set_of_not_blocked hpath hfree)
  have hbehind : ∀ rest, after.at? (path ++ rest) = value.at? rest := fun rest => by
    rw [hafter, Json.at?_fill_append hfree]
  have hapart : ∀ other, ¬ path <+: other → ¬ other <+: path →
      after.at? other = object.at? other := fun other hbelow habove => by
    rw [hafter, Json.at?_fill_of_apart ⟨hbelow, habove⟩]
    rfl
  refine ⟨?_, ?_, hbehind, hapart, ?_, ?_, ?_, ?_⟩
  · rw [set_of_not_blocked hpath hfree] at hset
    exact (Except.ok.inj hset).symm
  · have hself := hbehind []
    rwa [List.append_nil] at hself
  · rintro front key rest rfl
    rw [hafter]
    exact Json.at?_fill_front hfree
  · intro other hstands hmissing
    by_contra hneither
    obtain ⟨habove, hbelow⟩ := not_or.1 hneither
    exact hstands ((hapart other hbelow habove).trans hmissing)
  · intro another
    rw [set_eq_fill hpath, set_of_not_blocked hpath hfree, hafter, Json.fill_fill hfree]
    rfl
  · intro hobject hvalue
    rw [hafter]
    refine Json.ordered_fill (fun tree htree => ?_) hvalue
    obtain rfl := Option.some.inj htree
    exact hobject

/-- A node's name is set in a template that is missing. The template is made for it, and the number
of replicas stays. -/
theorem Deployment.set_node_name :
    (set (.string "node-1") ⟨object 3, ["spec", "template", "nodeName"]⟩).result = .ok none ∧
      (set (.string "node-1") ⟨object 3, ["spec", "template", "nodeName"]⟩).object.at?
        ["spec", "template", "nodeName"] = some (.string "node-1") ∧
      (set (.string "node-1") ⟨object 3, ["spec", "template", "nodeName"]⟩).object.at?
        ["spec", "replicas"] = some (.ofNat 3) := by
  have hset : (set (.string "node-1") ⟨object 3, ["spec", "template", "nodeName"]⟩).result =
      .ok none := rfl
  obtain ⟨-, hthere, -, hapart, -⟩ := set_replaces_one_field hset
  exact ⟨hset, hthere, hapart ["spec", "replicas"] (by decide) (by decide)⟩

/-- Setting two fields, neither of which contains the other, comes to the same in either order: the
object in the end is the same, and each of the two yields the same or fails alike. -/
theorem set_comm_of_apart {path other : List String} (hbelow : ¬ path <+: other)
    (habove : ¬ other <+: path) (object value another : Json) :
    let first := set value ⟨object, path⟩
    let second := set another ⟨object, other⟩
    (set another ⟨first.object, other⟩).object = (set value ⟨second.object, path⟩).object ∧
      (set another ⟨first.object, other⟩).result = second.result ∧
      (set value ⟨second.object, path⟩).result = first.result := by
  have hapart : Json.Apart path other := ⟨hbelow, habove⟩
  have hpath : path ≠ [] := by
    rintro rfl
    exact hbelow List.nil_prefix
  have hother : other ≠ [] := by
    rintro rfl
    exact habove List.nil_prefix
  have hfirst := Json.fill_comm hapart (some object) value another
  have hsecond := Json.fill_comm hapart.symm (some object) another value
  simp only [set_eq_fill hpath, set_eq_fill hother]
  exact ⟨hfirst.2, by rw [hfirst.1], by rw [hsecond.1]⟩

/-- A count below the number of replicas cannot be set, before a node's name is set or after it. -/
theorem Deployment.set_count_and_node_name :
    ¬ ["spec", "replicas", "count"] <+: ["spec", "template", "nodeName"] ∧
      ¬ ["spec", "template", "nodeName"] <+: ["spec", "replicas", "count"] ∧
      (set (.string "node-1") ⟨(set .null ⟨object 3, ["spec", "replicas", "count"]⟩).object,
        ["spec", "template", "nodeName"]⟩).object =
        (set .null ⟨(set (.string "node-1") ⟨object 3, ["spec", "template", "nodeName"]⟩).object,
          ["spec", "replicas", "count"]⟩).object ∧
      (set .null ⟨(set (.string "node-1") ⟨object 3, ["spec", "template", "nodeName"]⟩).object,
        ["spec", "replicas", "count"]⟩).result =
        .error (.notAnObject ["spec", "replicas", "count"]) := by
  have hbelow : ¬ ["spec", "replicas", "count"] <+: ["spec", "template", "nodeName"] := by decide
  have habove : ¬ ["spec", "template", "nodeName"] <+: ["spec", "replicas", "count"] := by decide
  obtain ⟨hobject, -, hresult⟩ := set_comm_of_apart hbelow habove (object 3) .null
    (.string "node-1")
  exact ⟨hbelow, habove, hobject, hresult⟩

/-! ## What is taken -/

/-- Taking a field yields what reading it yields. If that is nothing, the object stays as it is, and
nothing is made. Otherwise nothing stands at the path or behind it afterwards, and at every path
that lies apart stands what stood there before. At every place before the end of the path stands an
object, as before, with its members but for the one that leads on. Setting the field to what was
taken makes the object what it was. -/
theorem take_empties_one_field (ε : Type) {object : Json} (hordered : object.Ordered)
    {path : List String} (hpath : path ≠ []) :
    let taken : Accessed ε (Option Json) := take ⟨object, path⟩
    taken.result = (get ⟨object, path⟩).result ∧
      (object.at? path = none → taken.object = object) ∧
      ∀ old, object.at? path = some old →
        (∀ rest, taken.object.at? (path ++ rest) = none) ∧
        (∀ other, ¬ path <+: other → ¬ other <+: path →
          taken.object.at? other = object.at? other) ∧
        (∀ front key rest, path = front ++ key :: rest →
          ∃ members left, object.at? front = some (.object members) ∧
            taken.object.at? front = some (.object left) ∧
            ∀ k ≠ key, Keyed.get? k left = Keyed.get? k members) ∧
        set old ⟨taken.object, path⟩ = ⟨.ok none, object⟩ ∧ taken.object.Ordered := by
  intro taken
  cases hfound : object.at? path with
  | none =>
      have htaken : taken = ⟨.ok none, object⟩ := take_of_missing hpath hfound
      rw [htaken]
      refine ⟨?_, fun _ => rfl, fun old hold => absurd hold nofun⟩
      show Except.ok none = Except.ok (object.at? path)
      rw [hfound]
  | some old =>
      obtain ⟨after, hafter⟩ := Json.exists_taken hpath hfound
      have htaken : taken = ⟨.ok (some old), after⟩ := take_of_taken hafter
      rw [htaken]
      refine ⟨?_, nofun, ?_⟩
      · show Except.ok (some old) = Except.ok (object.at? path)
        rw [hfound]
      · intro other hother
        obtain rfl : old = other := Option.some.inj hother
        refine ⟨hafter.at?_append hordered, ?_, ?_, ?_, hafter.ordered hordered⟩
        · intro other hbelow habove
          exact hafter.at?_of_apart ⟨hbelow, habove⟩
        · rintro front key rest rfl
          exact hafter.at?_front
        · rw [set_eq_fill hpath, hafter.fill hordered]
          rfl

/-- The number of replicas is taken, and the specification stays behind without it. Setting it again
restores the deployment. -/
theorem Deployment.take_replicas :
    (object 3).Ordered ∧ ["spec", "replicas"] ≠ [] ∧
      (object 3).at? ["spec", "replicas"] = some (.ofNat 3) ∧
      (take ⟨object 3, ["spec", "replicas"]⟩ : Accessed FieldError _).object.at?
        ["spec", "replicas"] = none ∧
      set (.ofNat 3)
        ⟨(take ⟨object 3, ["spec", "replicas"]⟩ : Accessed FieldError _).object,
          ["spec", "replicas"]⟩ = ⟨.ok none, object 3⟩ := by
  have hordered : (object 3).Ordered := by
    simp only [object, Json.Ordered, Json.MembersOrdered, Json.ofNat, Keyed.Ordered]
    decide
  have hpath : ["spec", "replicas"] ≠ [] := List.cons_ne_nil _ _
  have hthere : (object 3).at? ["spec", "replicas"] = some (.ofNat 3) := rfl
  obtain ⟨-, -, htaken⟩ := take_empties_one_field FieldError hordered hpath
  obtain ⟨hgone, -, -, hrestored, -⟩ := htaken _ hthere
  exact ⟨hordered, hpath, hthere, hgone [], hrestored⟩

end Slot

end ApiCatalog
