import EntityForge.Proofs.Solidity.Writing

/-!
What is built. Every literal that is built is one that `Writes` gives. The lists in a value end in some
order, an inner one before the list that it is in, and building the literal of the value adds an
initialiser for each of them in that order. A list is then written as one call of its initialiser,
wherever it stands: in the literal of the value or among the items of another list. So what is called is
what was added, each initialiser once, and an initialiser calls only those that were added before it
(`exists_calls_of_literal`).
-/

namespace EntityForge.Solidity

variable {m : ResolvedModel} {arrays added : List ArrayInitialiser} {type : FieldType}

/-! ### Calls in literals -/

namespace Literal

mutual

/-- The numbers of the array initialisers that the literal calls, from left to right. -/
def calls : Literal → List Nat
  | number _ | ordinal _ | text _ | emptyArray _ => []
  | arrayCall n => [n]
  | struct _ members => memberCalls members
termination_by structural l => l

/-- The calls in the members of a struct. -/
def memberCalls : List (String × Literal) → List Nat
  | [] => []
  | (_, l) :: rest => calls l ++ memberCalls rest
termination_by structural ls => ls

end

theorem memberCalls_eq (members : List (String × Literal)) :
    memberCalls members = members.flatMap fun member => member.2.calls := by
  induction members with
  | nil => rfl
  | cons member rest ih => rw [memberCalls, ih, List.flatMap_cons]

end Literal

/-- The calls in the items of the array. -/
def ArrayInitialiser.calls (array : ArrayInitialiser) : List Nat := array.items.flatMap Literal.calls

/-- The zero value of a type calls nothing: its lists are empty. -/
theorem IsZero.calls_eq_nil {l : Literal} (isZero : IsZero m type l) : l.calls = [] := by
  induction isZero with
  | int | string | reference _ | list _ | byId _ => rw [Literal.calls]
  | optional _ ih => exact ih
  | @struct target entity struct members _ _ _ names _ ih =>
      have each := forall₂_eq_and_iff.mpr ⟨names, ih⟩
      rw [Literal.calls, Literal.memberCalls_eq, List.flatMap_append, List.append_eq_nil_iff]
      constructor
      · refine List.flatMap_eq_nil_iff.mpr fun member mem => ?_
        obtain ⟨field, _, _, none⟩ := (exists_of_forall₂ each).2 member mem
        exact none
      · split <;> rfl

/-! ### Lists in values -/

/-- The lists in a value of a declared type, in the order in which they end. Each comes with the type of
its items. -/
def listsIn (m : ResolvedModel) (type : FieldType) (value : Value) :
    List (FieldType × List Value) :=
  match value with
  | .list items =>
    match type.unwrap with
    | .list element =>
      (items.attach.flatMap fun ⟨item, _⟩ => listsIn m element item) ++ [(element, items)]
    | _ => []
  | .record actual fields =>
    match type.unwrap, m.schema.entity? actual with
    | .embedded _, some entity => entity.fields.flatMap fun field =>
      match _found : SortedMap.find? compare field.name fields with
      | none => []
      | some v => listsIn m field.type v
    | _, _ => []
  | .nil | .int _ | .string _ | .ref _ | .map _ => []
termination_by sizeOf value
decreasing_by
  · have := List.sizeOf_lt_of_mem ‹_ ∈ items›
    simp only [Value.list.sizeOf_spec]
    omega
  · have := SortedMap.sizeOf_lt_of_find? _found
    simp only [Value.record.sizeOf_spec]
    omega

theorem listsIn_list {element : FieldType} (fits : type.unwrap = .list element)
    (items : List Value) : listsIn m type (.list items) =
      items.flatMap (listsIn m element) ++ [(element, items)] := by
  rw [listsIn, fits]
  simp

/-- The lists in a record are those in what it sets of the fields of its own type. -/
theorem listsIn_record {target actual : EntityId} {entity : EntityType}
    (fits : type.unwrap = .embedded target) (declared : m.schema.entity? actual = some entity)
    (fields : List (String × Value)) : listsIn m type (.record actual fields) =
      entity.fields.flatMap fun field =>
        listsIn m field.type ((SortedMap.find? compare field.name fields).getD .nil) := by
  rw [listsIn, fits, declared]
  dsimp only
  congr
  funext field
  split
  · rename_i unset
    rw [unset, Option.getD_none, listsIn]
  · rename_i v set
    rw [set, Option.getD_some]

/-! ### Initialisers of lists -/

/-- The line that assigns an item to its index. -/
def itemLine (item : Literal × Nat) : SourceLine := .plain s!"_arr[{item.2}] = {item.1.render};"

/-- The initialiser builds the array of a list: it allocates as many places as the list has items, and
assigns the literals of the items to them in the order of the list. -/
structure Builds (m : ResolvedModel) (arrays : List ArrayInitialiser)
    (list : FieldType × List Value) (array : ArrayInitialiser) : Prop where
  typed : solType m list.1 = .ok array.element
  items : List.Forall₂ (Writes m arrays list.1) list.2 array.items
  source : array.source = Source.block
    s!"function {arrayName array.number}() internal pure returns ({array.element.render}[] memory _arr) \x7b"
    (.plain s!"_arr = new {array.element.render}[]({list.2.length});" ::
      array.items.zipIdx.map itemLine)

theorem builds_of_items {element : FieldType} {items : List Value} {array : ArrayInitialiser}
    (typed : solType m element = .ok array.element)
    (each : List.Forall₂ (Writes m arrays element) items array.items) :
    Builds m arrays (element, items) array where
  typed := typed
  items := each
  source := by
    rw [each.length_eq]
    rfl

theorem Builds.mono {arrays' : List ArrayInitialiser} {list : FieldType × List Value}
    {array : ArrayInitialiser} (builds : Builds m arrays list array) (subset : arrays ⊆ arrays') :
    Builds m arrays' list array where
  typed := builds.typed
  items := builds.items.imp fun _ _ writes => writes.mono subset
  source := builds.source

/-- Array initialisers, of the lists in some values, and the literals of these values. What is called is
what there is, once each, and no initialiser calls itself or a later one. -/
structure CallsLists (m : ResolvedModel) (arrays : List ArrayInitialiser)
    (values : List (FieldType × Value)) (literals : List Literal) (added : List ArrayInitialiser) :
    Prop where
  writes : List.Forall₂ (fun v l => Writes m arrays v.1 v.2 l) values literals
  builds : List.Forall₂ (Builds m arrays) (values.flatMap fun v => listsIn m v.1 v.2) added
  called : (literals.flatMap Literal.calls ++ added.flatMap ArrayInitialiser.calls).Perm
    (added.map ArrayInitialiser.number)
  earlier : ∀ array ∈ added, ∀ n ∈ array.calls, n < array.number

namespace CallsLists

variable {values values' : List (FieldType × Value)} {literals literals' : List Literal}
  {added' : List ArrayInitialiser}

theorem nil : CallsLists m arrays [] [] [] :=
  ⟨.nil, .nil, .refl _, fun _ mem => (List.not_mem_nil mem).elim⟩

theorem append (first : CallsLists m arrays values literals added)
    (second : CallsLists m arrays values' literals' added') :
    CallsLists m arrays (values ++ values') (literals ++ literals') (added ++ added') where
  writes := List.rel_append first.writes second.writes
  builds := by
    rw [List.flatMap_append]
    exact List.rel_append first.builds second.builds
  called := by
    rw [List.flatMap_append, List.flatMap_append, List.map_append]
    have swapped : (literals'.flatMap Literal.calls ++ added.flatMap ArrayInitialiser.calls).Perm
        (added.flatMap ArrayInitialiser.calls ++ literals'.flatMap Literal.calls) :=
      List.perm_append_comm
    have sorted := (swapped.append_left (literals.flatMap Literal.calls)).append_right
      (added'.flatMap ArrayInitialiser.calls)
    simp only [List.append_assoc] at sorted ⊢
    refine sorted.trans ?_
    rw [← List.append_assoc]
    exact first.called.append second.called
  earlier array mem := by
    rcases List.mem_append.mp mem with mem | mem
    · exact first.earlier array mem
    · exact second.earlier array mem

/-- A value without lists is written without calls. -/
theorem leaf {value : Value} {l : Literal} (writes : Writes m arrays type value l)
    (flat : listsIn m type value = []) (silent : l.calls = []) :
    CallsLists m arrays [(type, value)] [l] [] where
  writes := .cons writes .nil
  builds := by
    rw [List.flatMap_singleton, flat]
    exact .nil
  called := by
    rw [List.flatMap_singleton, silent]
    exact .refl _
  earlier _ mem := (List.not_mem_nil mem).elim

/-- The initialiser of a list calls what its items call, and its literal is the only call of it. -/
theorem list {element : FieldType} {items : List Value} {array : ArrayInitialiser} {s t : Arrays}
    (inside : CallsLists m arrays (items.map (element, ·)) array.items added)
    (registers : Registers s t added) (next : array.number = t.count + 1)
    (fits : type.unwrap = .list element) (mem : array ∈ arrays)
    (builds : Builds m arrays (element, items) array) :
    CallsLists m arrays [(type, .list items)] [.arrayCall array.number] (added ++ [array]) where
  writes := .cons (.list fits mem builds.typed builds.items.length_eq fun _ _ there =>
    List.forall₂_zip builds.items there) .nil
  builds := by
    have before := inside.builds
    rw [List.flatMap_map] at before
    rw [List.flatMap_singleton, listsIn_list fits]
    exact List.rel_append before (.cons builds .nil)
  called := by
    rw [List.flatMap_singleton, Literal.calls, List.flatMap_append, List.flatMap_singleton,
      List.map_append, List.map_singleton]
    have items : (added.flatMap ArrayInitialiser.calls ++ array.calls).Perm
        (added.map ArrayInitialiser.number) := List.perm_append_comm.trans inside.called
    exact (items.append_left _).trans List.perm_append_comm
  earlier other mem n calls := by
    rcases List.mem_append.mp mem with mem | last
    · exact inside.earlier other mem n calls
    · obtain rfl := List.mem_singleton.mp last
      have called := inside.called.subset (List.mem_append_left _ calls)
      rw [registers.numbered, List.mem_range'_1, ← Nat.add_right_comm, ← registers.count] at called
      omega

/-- A record calls what the fields of its own type call. -/
theorem record {target actual : EntityId} {entity : EntityType} {struct : String}
    {fields : List (String × Value)} (fits : type.unwrap = .embedded target)
    (declared : m.schema.entity? actual = some entity) (named : structName m actual = .ok struct)
    (inside : CallsLists m arrays (entity.fields.map fun field =>
      (field.type, (SortedMap.find? compare field.name fields).getD .nil)) literals added) :
    CallsLists m arrays [(type, .record actual fields)]
      [.struct struct (List.zipWith (fun field l => (memberName field.name, l)) entity.fields literals ++
        if entity.annotations.fungible then [("_token_id", .number 0)] else [])] added where
  writes := by
    have members : List.Forall₂ (fun field member => memberName field.name = member.1 ∧
        Writes m arrays field.type ((SortedMap.find? compare field.name fields).getD .nil) member.2)
        entity.fields
        (List.zipWith (fun field l => (memberName field.name, l)) entity.fields literals) := by
      refine (forall₂_zipWith (List.forall₂_map_left_iff.mp inside.writes)).imp ?_
      rintro field _ ⟨l, writes, rfl⟩
      exact ⟨rfl, writes⟩
    obtain ⟨names, written⟩ := forall₂_eq_and_iff.mp members
    exact .cons (.record fits declared named names written) .nil
  builds := by
    have before := inside.builds
    rw [List.flatMap_map] at before
    rw [List.flatMap_singleton, listsIn_record fits declared]
    exact before
  called := by
    have same := inside.writes.length_eq
    rw [List.length_map] at same
    have token : (if entity.annotations.fungible then [("_token_id", Literal.number 0)] else []).flatMap
        (fun member => member.2.calls) = [] := by
      split <;> rfl
    rw [List.flatMap_singleton, Literal.calls, Literal.memberCalls_eq, List.flatMap_append, token,
      List.append_nil, ← List.flatMap_map, List.map_zipWith, zipWith_right same]
    exact inside.called
  earlier := inside.earlier

theorem mono {arrays' : List ArrayInitialiser} (calls : CallsLists m arrays values literals added)
    (subset : arrays ⊆ arrays') : CallsLists m arrays' values literals added where
  writes := calls.writes.imp fun _ _ writes => writes.mono subset
  builds := calls.builds.imp fun _ _ builds => builds.mono subset
  called := calls.called
  earlier := calls.earlier

/-- Several functions together call what they call by themselves. -/
theorem flatMap {β : Type} {blocks : List β} {values : β → List (FieldType × Value)}
    {literals : β → List Literal} {added : β → List ArrayInitialiser}
    (each : ∀ b ∈ blocks, CallsLists m arrays (values b) (literals b) (added b)) :
    CallsLists m arrays (blocks.flatMap values) (blocks.flatMap literals)
      (blocks.flatMap added) := by
  induction blocks with
  | nil => exact .nil
  | cons b rest ih =>
      obtain ⟨first, others⟩ := List.forall_mem_cons.mp each
      exact first.append (ih others)

end CallsLists

/-! ### Building literals -/

/-- What is built for the items of a list is built in their order, from one state to the next. `R` relates
an item to what is built for it, and `make` says what is returned of that. -/
theorem exists_calls_of_mapM {α β γ : Type} (R : γ → β → Prop) (make : γ → β → α)
    (values : γ → List (FieldType × Value)) (literals : β → List Literal) {f : γ → Build α}
    {items : List γ}
    (each : ∀ c ∈ items, ∀ s a s', (f c).run s = .ok (a, s') → s'.pending ⊆ arrays →
      ∃ b added, R c b ∧ a = make c b ∧ Registers s s' added ∧
        CallsLists m arrays (values c) (literals b) added)
    {s s' : Arrays} {results : List α} (run : (items.mapM f).run s = .ok (results, s'))
    (kept : s'.pending ⊆ arrays) :
    ∃ bs added, List.Forall₂ R items bs ∧ results = List.zipWith make items bs ∧
      Registers s s' added ∧
      CallsLists m arrays (items.flatMap values) (bs.flatMap literals) added := by
  induction items generalizing s results with
  | nil =>
      cases run
      exact ⟨[], [], .nil, rfl, .refl _, .nil⟩
  | cons c rest ih =>
      obtain ⟨one, others⟩ := List.forall_mem_cons.mp each
      rw [List.mapM_cons] at run
      obtain ⟨a, t, first, run⟩ := runState_bind_eq_ok_iff.mp run
      obtain ⟨later, t', follow, last⟩ := runState_bind_eq_ok_iff.mp run
      cases last
      obtain ⟨bs, added', related', rfl, registers', calls'⟩ := ih others follow
      have earlier : t.pending ⊆ arrays := List.Subset.trans registers'.subset kept
      obtain ⟨b, added, related, rfl, registers, calls⟩ := one _ a t first earlier
      refine ⟨b :: bs, added ++ added', .cons related related', rfl, registers.trans registers', ?_⟩
      rw [List.flatMap_cons, List.flatMap_cons]
      exact calls.append calls'

/-- The same where each item has one value. -/
theorem exists_calls_of_mapM_literal {α γ : Type} (R : γ → Literal → Prop) (make : γ → Literal → α)
    (value : γ → FieldType × Value) {f : γ → Build α} {items : List γ}
    (each : ∀ c ∈ items, ∀ s a s', (f c).run s = .ok (a, s') → s'.pending ⊆ arrays →
      ∃ l added, R c l ∧ a = make c l ∧ Registers s s' added ∧
        CallsLists m arrays [value c] [l] added)
    {s s' : Arrays} {results : List α} (run : (items.mapM f).run s = .ok (results, s'))
    (kept : s'.pending ⊆ arrays) :
    ∃ literals added, List.Forall₂ R items literals ∧ results = List.zipWith make items literals ∧
      Registers s s' added ∧ CallsLists m arrays (items.map value) literals added := by
  obtain ⟨literals, added, related, made, registers, calls⟩ :=
    exists_calls_of_mapM R make (fun c => [value c]) (fun l => [l]) each run kept
  rw [← List.map_eq_flatMap, List.flatMap_singleton'] at calls
  exact ⟨literals, added, related, made, registers, calls⟩

/-- Whenever the literal of the value is built, what is added are the initialisers of its lists. -/
def AddsItsLists (m : ResolvedModel) (arrays : List ArrayInitialiser) (type : FieldType)
    (value : Value) : Prop :=
  ∀ s l s', (literal m type value).run s = .ok (l, s') → s'.pending ⊆ arrays →
    ∃ added, Registers s s' added ∧ CallsLists m arrays [(type, value)] [l] added

namespace AddsItsLists

theorem nil : AddsItsLists m arrays type .nil := by
  intro s l s' run kept
  rw [literal] at run
  obtain ⟨computed, rfl⟩ := runState_lift_eq_ok_iff.mp run
  have isZero := isZero_of_zero [] type l computed
  exact ⟨[], .refl _, .leaf (.nil isZero) (by rw [listsIn]) isZero.calls_eq_nil⟩

theorem int (n : Int) : AddsItsLists m arrays type (.int n) := by
  intro s l s' run kept
  rw [literal] at run
  split at run
  all_goals cases run
  exact ⟨[], .refl _, .leaf (.int n ‹_›) (by rw [listsIn]) (by rw [Literal.calls])⟩

theorem string (text : String) : AddsItsLists m arrays type (.string text) := by
  intro s l s' run kept
  rw [literal] at run
  split at run
  all_goals cases run
  exact ⟨[], .refl _, .leaf (.string text ‹_›) (by rw [listsIn]) (by rw [Literal.calls])⟩

theorem ref (r : Reference) : AddsItsLists m arrays type (.ref r) := by
  intro s l s' run kept
  rw [literal] at run
  split at run
  · obtain ⟨key, resolved, last⟩ := runState_lift_bind_eq_ok_iff.mp run
    cases last
    exact ⟨[], .refl _, .leaf (.ref ‹_› resolved) (by rw [listsIn]) (by rw [Literal.calls])⟩
  · cases run
  · cases run

/-- A map has no literal. -/
theorem map (entries : List (Value × Value)) : AddsItsLists m arrays type (.map entries) := by
  intro s l s' run _
  rw [literal] at run
  split at run
  all_goals cases run

/-- The initialiser of a list is added after those of its items. -/
theorem list {items : List Value}
    (each : ∀ item ∈ items, ∀ element, AddsItsLists m arrays element item) :
    AddsItsLists m arrays type (.list items) := by
  intro s l s' run kept
  rw [literal] at run
  split at run
  · rename_i element fits
    rw [itemLiterals_eq_mapM] at run
    obtain ⟨literals, t, built, run⟩ := runState_bind_eq_ok_iff.mp run
    obtain ⟨layout, typed, last⟩ := runState_lift_bind_eq_ok_iff.mp run
    cases last
    obtain ⟨earlier, own⟩ := List.append_subset.mp kept
    obtain ⟨_, added, _, same, registers, inside⟩ :=
      exists_calls_of_mapM_literal (fun _ _ => True) (fun _ l => l) (fun item => (element, item))
        (fun item mem u l u' here below => by
          obtain ⟨added, registers, calls⟩ := each item mem element u l u' here below
          exact ⟨l, added, trivial, rfl, registers, calls⟩)
        built earlier
    have written := List.forall₂_map_left_iff.mp inside.writes
    rw [zipWith_right written.length_eq] at same
    subst same
    have builds : Builds m arrays (element, items) ⟨t.count + 1, layout, literals⟩ :=
      builds_of_items typed written
    exact ⟨added ++ [_], registers.trans ⟨rfl, rfl, rfl⟩,
      inside.list registers rfl fits (own List.mem_cons_self) builds⟩
  · cases run
  · cases run

/-- A record adds what its fields add, a field that is not set nothing. -/
theorem record {actual : EntityId} {fields : List (String × Value)}
    (each : ∀ field : Field, AddsItsLists m arrays field.type
      ((SortedMap.find? compare field.name fields).getD .nil)) :
    AddsItsLists m arrays type (.record actual fields) := by
  intro s l s' run kept
  cases fits : type.unwrap with
  | embedded target =>
      rw [literal_record fits] at run
      obtain ⟨entity, got, run⟩ := runState_lift_bind_eq_ok_iff.mp run
      obtain ⟨members, t, built, run⟩ := runState_bind_eq_ok_iff.mp run
      obtain ⟨struct, named, last⟩ := runState_lift_bind_eq_ok_iff.mp run
      cases last
      obtain ⟨literals, added, _, rfl, registers, inside⟩ :=
        exists_calls_of_mapM_literal (fun _ _ => True)
          (fun field l => (memberName field.name, l))
          (fun field => (field.type, (SortedMap.find? compare field.name fields).getD .nil))
          (fun field mem u member u' here below => by
            obtain ⟨l, v, made, last⟩ := runState_bind_eq_ok_iff.mp here
            cases last
            obtain ⟨added, registers, calls⟩ := each field u l _ made below
            exact ⟨l, added, trivial, rfl, registers, calls⟩)
          built kept
      exact ⟨added, registers, inside.record fits (Registry.get_eq_ok_iff.mp got) named⟩
  | scalar _ | optional _ | list _ | map _ _ | reference _ =>
      rw [literal, fits] at run
      cases run

end AddsItsLists

/-- Building the literal of a value adds the initialisers of its lists, in the order in which they end. -/
theorem addsItsLists (type : FieldType) (value : Value) : AddsItsLists m arrays type value := by
  cases value with
  | nil => exact .nil
  | int n => exact .int n
  | string text => exact .string text
  | ref r => exact .ref r
  | map entries => exact .map entries
  | list items => exact .list fun item mem element => addsItsLists element item
  | record actual fields =>
      refine .record fun field => ?_
      have smaller := sizeOf_getD_lt field.name actual fields
      exact addsItsLists field.type _
termination_by sizeOf value
decreasing_by
  · have := List.sizeOf_lt_of_mem mem
    simp only [Value.list.sizeOf_spec]
    omega
  · rw [Value.record.sizeOf_spec]
    exact smaller

/-- **A literal calls the initialisers of its lists,** which are added in the order in which the lists
end. -/
theorem exists_calls_of_literal (type : FieldType) (value : Value) {s s' : Arrays} {l : Literal}
    (run : (literal m type value).run s = .ok (l, s')) (kept : s'.pending ⊆ arrays) :
    ∃ added, Registers s s' added ∧ CallsLists m arrays [(type, value)] [l] added :=
  addsItsLists type value s l s' run kept

/-- Every literal that is built is that of its value. -/
theorem writes_of_literal (type : FieldType) (value : Value) {s s' : Arrays} {l : Literal}
    (run : (literal m type value).run s = .ok (l, s')) (kept : s'.pending ⊆ arrays) :
    Writes m arrays type value l := by
  obtain ⟨_, _, calls⟩ := exists_calls_of_literal type value run kept
  exact (List.forall₂_cons.mp calls.writes).1

end EntityForge.Solidity
