import GuildPlan.Proofs.Builders
import GuildPlan.Proofs.Markers
import GuildPlan.Proofs.Places
import GuildPlan.Proofs.Revalidation

/-
  The two forms of an entity. Artifacts hold its fields in the order of their declaration, the
  further ones behind them, and nothing looks for repetitions there; a script gets its fields in
  the order of their keys, with the markers of predicates among them. The further fields have
  other names than the declared ones, so no key is written twice, and but for the order and the
  markers the two forms are the same, down to every part.
-/
namespace GuildPlan

/-! ## Values up to the order of members -/

/-- The members in order of their keys; all of them stay. -/
def Members.inOrder (ms : Members) : Members := ms.mergeSort fun m m' => m.1 ≤ m'.1

mutual

/-- The value with the members of every object in it in order of their keys. -/
def Json.sorted : Json → Json
  | .arr items => .arr (sortedItems items)
  | .obj members => .obj (Members.inOrder (sortedMembers members))
  | v => v

def Json.sortedItems : List Json → List Json
  | [] => []
  | v :: vs => v.sorted :: sortedItems vs

def Json.sortedMembers : List (String × Json) → List (String × Json)
  | [] => []
  | (key, v) :: rest => (key, v.sorted) :: sortedMembers rest

end

/-- No object in a value has two members with one key. -/
inductive Json.Unrepeated : Json → Prop
  | null : Unrepeated .null
  | bool (b : Bool) : Unrepeated (.bool b)
  | int (n : Int) : Unrepeated (.int n)
  | float (x : Double) : Unrepeated (.float x)
  | str (s : String) : Unrepeated (.str s)
  | arr {items : List Json} (each : ∀ item ∈ items, item.Unrepeated) : Unrepeated (.arr items)
  | obj {members : Members} (distinct : members.keys.Nodup)
    (each : ∀ m ∈ members, m.2.Unrepeated) : Unrepeated (.obj members)

/-- Two forms of one value: the first has no key twice, and the second is the first with
everything in order. -/
structure Json.Arranged (v w : Json) : Prop where
  unrepeated : v.Unrepeated
  sorted : v.sorted = w

namespace Members
variable {ms : Members}

theorem ofList_perm (distinct : ms.keys.Nodup) : (ofList ms).Perm ms := by
  have ascending := (ascending_ofList ms).nodup_keys
  refine (List.perm_ext_iff_of_nodup ascending.of_map distinct.of_map).2 fun m => ?_
  rw [← lookup_eq_some_iff_mem ascending, ← lookup_eq_some_iff_mem distinct]
  exact iff_of_eq (congrArg (· = some m.2) (get?_ofList distinct))

/-- Without repetitions nothing is lost when members are put in order one by one. -/
theorem inOrder_eq_ofList (distinct : ms.keys.Nodup) : ms.inOrder = ofList ms := by
  have ordered : (ofList ms).Pairwise fun m m' => decide (m.1 ≤ m'.1) :=
    (ascending_ofList ms).imp fun less => decide_eq_true (Std.le_of_lt less)
  unfold inOrder
  refine Eq.trans ?_ (List.mergeSort_of_pairwise ordered)
  refine mergeSort_eq_of_perm ?_ ?_ (fun a inA b inB le ge => ?_) (ofList_perm distinct).symm
  · intro a b c ab bc
    exact decide_eq_true (String.le_trans (of_decide_eq_true ab) (of_decide_eq_true bc))
  · intro a b
    simpa using String.le_total a.1 b.1
  · have same := String.le_antisymm (of_decide_eq_true le) (of_decide_eq_true ge)
    exact List.inj_on_of_nodup_map distinct inA inB same

end Members

namespace Json

theorem sortedItems_eq (vs : List Json) : sortedItems vs = vs.map sorted := by
  induction vs with
  | nil => rfl
  | cons v vs ih => rw [sortedItems, ih, List.map_cons]

theorem sortedMembers_eq (ms : Members) : sortedMembers ms = ms.map fun m => (m.1, m.2.sorted) := by
  induction ms with
  | nil => rfl
  | cons m ms ih => rw [sortedMembers, ih, List.map_cons]

namespace Arranged
variable {α : Type}

theorem str (s : String) : Arranged (.str s) (.str s) := ⟨.str s, rfl⟩

theorem list {f g : α → Json} {xs : List α} (each : ∀ x ∈ xs, Arranged (f x) (g x)) :
    Arranged (.arr (xs.map f)) (.arr (xs.map g)) where
  unrepeated := .arr (List.forall_mem_map.2 fun x mem => (each x mem).unrepeated)
  sorted := by
    rw [Json.sorted, sortedItems_eq, List.map_map]
    exact congrArg Json.arr (List.map_congr_left fun x mem => (each x mem).sorted)

/-- Members in any order, and the same members put in order, each in its two forms. -/
theorem members {ms ms' : Members} (distinct : ms.keys.Nodup)
    (each : List.Forall₂ (fun m m' => m.1 = m'.1 ∧ Arranged m.2 m'.2) ms ms') :
    Arranged (.obj ms) (.obj (Members.ofList ms')) := by
  have same : (ms.map fun m => (m.1, m.2.sorted)) = ms' :=
    List.forall₂_eq_eq_eq ▸ List.forall₂_map_left_iff.2
      (each.imp fun _ _ paired => Prod.ext paired.1 paired.2.sorted)
  have keys : Members.keys (ms.map fun m => (m.1, m.2.sorted)) = ms.keys := List.map_map
  have unrepeated : ∀ m ∈ ms, m.2.Unrepeated :=
    ((List.forall₂_and_left _ _).1 (each.imp fun _ _ paired => ⟨paired.2.unrepeated, paired⟩)).1
  refine ⟨.obj distinct unrepeated, ?_⟩
  rw [Json.sorted, sortedMembers_eq, Members.inOrder_eq_ofList (keys ▸ distinct), same]

end Arranged

/-- A value whose members are in order is its own other form. -/
theorem Canonical.arranged {v : Json} (canonical : v.Canonical) : Arranged v v := by
  induction canonical with
  | null => exact ⟨.null, rfl⟩
  | bool b => exact ⟨.bool b, rfl⟩
  | int n => exact ⟨.int n, rfl⟩
  | float x => exact ⟨.float x, rfl⟩
  | str s => exact .str s
  | @arr items _ ih =>
    have listed := Arranged.list (f := id) (g := id) ih
    rwa [List.map_id] at listed
  | @obj members ascending _ ih =>
    have same : Members.ofList members = members := by
      rw [Members.ofList_eq]
      exact congrArg KeyMap.entries (KeyMap.ofList_entries ⟨members, ascending⟩)
    have arranged := Arranged.members ascending.nodup_keys
      (List.forall₂_same.2 fun m mem => ⟨rfl, ih m mem⟩)
    rwa [same] at arranged

/-- The value without the marker of its predicate. -/
def unmarked : Json → Json
  | .obj members => .obj (Members.without ["include"] members)
  | v => v

/-- The value without the marker of its predicate and those of its channels'. -/
def unmarkedThroughout : Json → Json
  | .obj members => .obj ((Members.without ["include"] members).map fun
    | ("channels", .arr items) => ("channels", .arr (items.map unmarked))
    | m => m)
  | v => v

end Json

/-! ## Entities -/

/-- Fields that are carried along: under other names than the known ones, and in order
throughout. -/
structure Members.Carried (known : List String) (extra : Members) : Prop
    extends Members.Beside known extra where
  values : ∀ m ∈ extra, m.2.Canonical

namespace Members
variable {known : List String} {front front' extra : Members}

theorem carried_without (known : List String) {ms : Members} (ascending : Ascending ms)
    (values : ∀ m ∈ ms, m.2.Canonical) : Carried known (ms.without known) where
  toBeside := beside_without known ascending
  values m mem := values m (List.mem_of_mem_filter mem)

/-- The two forms of fields with others carried along behind them. -/
theorem Carried.arranged (carried : Carried known extra) (distinct : front.keys.Nodup)
    (named : front.keys ⊆ known)
    (each : List.Forall₂ (fun m m' => m.1 = m'.1 ∧ m.2.Arranged m'.2) front front') :
    Json.Arranged (.obj (front ++ extra)) (.obj (ofList (front' ++ extra))) := by
  refine .members (carried.nodup_keys_append distinct named) (List.rel_append each ?_)
  exact List.forall₂_same.2 fun m mem => ⟨rfl, (carried.values m mem).arranged⟩

/-- A marker that was put in can be taken out again. -/
theorem without_withInclusion {ms : Members} (inclusion : Option Handle)
    (ascending : Ascending ms) (absent : ms.get? "include" = none) :
    (ms.withInclusion inclusion).without ["include"] = ms := by
  refine ext_get? (ascending_without _ (ascending_withInclusion ascending)) ascending fun key => ?_
  rw [get?_without, get?_withInclusion absent]
  by_cases same : key = "include" <;> simp [same, absent]

end Members

theorem Role.arranged (role : Role) : role.written.Arranged role.toScript := by
  have leaves : ∀ m ∈ role.fields, m.2.Canonical := by
    unfold Role.fields
    cases role.color <;> simp
  exact .members role.nodup_keys_fields
    (List.forall₂_same.2 fun m mem => ⟨rfl, (leaves m mem).arranged⟩)

/-- The further fields of an override that was read are carried along. -/
structure Override.Tidy (o : Override) : Prop where
  extra : Members.Carried Schema.overrideFields o.extra

/-- The options of a channel that was read, and what its overrides carry, are carried along. -/
structure Channel.Tidy (c : Channel) : Prop where
  overrides : ∀ o ∈ c.overrides, o.Tidy
  options : Members.Carried Schema.channelFields c.options

structure Category.Tidy (c : Category) : Prop where
  channels : ∀ channel ∈ c.channels, channel.Tidy
  overrides : ∀ o ∈ c.overrides, o.Tidy

theorem Override.Tidy.arranged {o : Override} (tidy : o.Tidy) : o.written.Arranged o.toScript := by
  have settings : (Json.obj (o.permissions.map (Json.str ·.text)).entries).Canonical := by
    refine .obj (KeyMap.ascending _) fun m mem => ?_
    obtain ⟨e, _, rfl⟩ := List.mem_map.1 mem
    exact .str e.2.text
  have distinct : o.named.keys.Nodup := by
    show ["id", "type", "permissions"].Nodup
    decide
  have named : o.named.keys ⊆ Schema.overrideFields := List.Subset.refl _
  exact tidy.extra.arranged distinct named
    (.cons ⟨rfl, .str _⟩ (.cons ⟨rfl, .str _⟩ (.cons ⟨rfl, settings.arranged⟩ .nil)))

/-- The two forms of a channel: the same but for the order and the marker of its predicate. -/
structure Channel.Agrees (c : Channel) : Prop where
  arranged : c.written.Arranged c.toScript.unmarked
  marker : c.toScript.part? (.field "include") = c.inclusion.map Handle.marker

/-- The two forms of a category: the same but for the order, the marker of its predicate and
those of its channels'. -/
structure Category.Agrees (c : Category) : Prop where
  arranged : c.written.Arranged c.toScript.unmarkedThroughout
  marker : c.toScript.part? (.field "include") = c.inclusion.map Handle.marker
  nested : c.toScript.part? (.field "channels") = some (.arr (c.channels.map Channel.toScript))
  channels : ∀ channel ∈ c.channels, channel.Agrees

theorem Channel.Tidy.agrees {c : Channel} (tidy : c.Tidy) : c.Agrees := by
  obtain ⟨distinct, known⟩ := c.keys_named
  have absent : (Members.ofList (c.named ++ c.options)).get? "include" = none :=
    tidy.options.get?_ofList distinct known
  have plain : c.toScript.unmarked = .obj (Members.ofList (c.named ++ c.options)) :=
    congrArg Json.obj
      (Members.without_withInclusion c.inclusion (Members.ascending_ofList _) absent)
  constructor
  · rw [plain]
    unfold Channel.written Channel.fields
    refine tidy.options.arranged distinct known ?_
    have overrides := Json.Arranged.list fun o mem => (tidy.overrides o mem).arranged
    exact .cons ⟨rfl, .str _⟩ (.cons ⟨rfl, .str _⟩ (.cons ⟨rfl, .str _⟩
      (.cons ⟨rfl, overrides⟩ .nil)))
  · exact (Members.get?_withInclusion absent).trans (if_pos rfl)

/-- The members of what a script gets of a category, in their order. -/
theorem Category.ofList_fields (c : Category) (channels overrides : List Json) :
    Members.ofList (c.fields channels overrides) = [("channels", .arr channels),
      ("id", .str c.id.text), ("name", .str c.name), ("overrides", .arr overrides)] := by
  simp (disch := decide) only [fields, Members.ofList, List.foldl_cons, List.foldl_nil,
    insertEntry, if_pos, if_neg]

theorem Category.Tidy.agrees {c : Category} (tidy : c.Tidy) : c.Agrees := by
  have channels : ∀ channel ∈ c.channels, channel.Agrees :=
    fun channel mem => (tidy.channels channel mem).agrees
  have absent : (Members.ofList c.named).get? "include" = none := by
    rw [Category.named, c.ofList_fields]
    rfl
  have plain : c.toScript.unmarkedThroughout = .obj (Members.ofList
      (c.fields (c.channels.map fun channel => channel.toScript.unmarked)
        (c.overrides.map Override.toScript))) := by
    have unordered := Members.without_withInclusion c.inclusion
      (Members.ascending_ofList c.named) absent
    show Json.obj (((Members.withInclusion c.inclusion (Members.ofList c.named)).without
      ["include"]).map _) = _
    rw [unordered, Category.named, c.ofList_fields, c.ofList_fields]
    simp
  refine ⟨?_, (Members.get?_withInclusion absent).trans (if_pos rfl), ?_, channels⟩
  · rw [plain]
    have items := Json.Arranged.list fun channel mem => (channels channel mem).arranged
    have overrides := Json.Arranged.list fun o mem => (tidy.overrides o mem).arranged
    refine .members ?_
      (.cons ⟨rfl, .str _⟩ (.cons ⟨rfl, .str _⟩ (.cons ⟨rfl, items⟩ (.cons ⟨rfl, overrides⟩ .nil))))
    show ["id", "name", "channels", "overrides"].Nodup
    decide
  · exact c.get?_members "channels"

namespace Schema

/-! ## What was read -/

theorem readOverride_tidy {location : Location} {v : Json} {o : Override} (canonical : v.Canonical)
    (ok : readOverride location v = .ok o) : o.Tidy := by
  obtain ⟨r, rfl, extra⟩ := extra_of_readOverride ok
  obtain ⟨ascending, values⟩ := Json.canonical_obj.1 canonical
  exact ⟨extra ▸ Members.carried_without overrideFields ascending values⟩

theorem OverridesOf.tidy {r : Record} {overrides : List Override} (read : OverridesOf r overrides)
    (values : ∀ m ∈ r.members, m.2.Canonical) : ∀ o ∈ overrides, o.Tidy := by
  obtain ⟨vs, listed, each⟩ := read
  intro o mem
  obtain ⟨v, source, place, ok⟩ := exists_of_mem_right each mem
  exact readOverride_tidy (Record.canonical_of_list values listed v source) ok

theorem ChannelOf.tidy {r : Record} {v : Json} {c : Channel} (read : ChannelOf r v c)
    (canonical : v.Canonical) : c.Tidy := by
  obtain ⟨ascending, values⟩ := Json.canonical_obj.1 (read.whole ▸ canonical)
  exact ⟨read.overrides.tidy values,
    read.options ▸ Members.carried_without channelFields ascending values⟩

theorem CategoryOf.tidy {r : Record} {v : Json} {c : Category} (read : CategoryOf r v c)
    (canonical : v.Canonical) : c.Tidy := by
  obtain ⟨_, values⟩ := Json.canonical_obj.1 (read.whole ▸ canonical)
  obtain ⟨vs, listed, each⟩ := read.channels
  refine ⟨fun channel mem => ?_, read.overrides.tidy values⟩
  obtain ⟨v, source, r', below⟩ := exists_of_mem_right each mem
  exact below.tidy (Record.canonical_of_list values listed v source)

theorem OpenEntity.arranged {e : OpenEntity} (carried : Members.Carried builderFields e.extra) :
    e.written.Arranged e.toScript := by
  have leaves : ∀ m ∈ e.checked, m.2.Canonical := by
    unfold checked
    cases e.id <;> simp
  exact carried.arranged e.keys_checked.1 e.keys_checked.2
    (List.forall₂_same.2 fun m mem => ⟨rfl, (leaves m mem).arranged⟩)

/-- Further fields of a record are carried along as they are. -/
theorem Record.carried_rest {location : Location} {v : Json} {r : Record} (known : List String)
    (canonical : v.Canonical) (taken : Record.ofJson location v = .ok r) :
    Members.Carried known (r.rest known) := by
  obtain ⟨ascending, values⟩ := Record.canonical_of_ofJson canonical taken
  exact Members.carried_without known ascending values

theorem readChannelBuilder_carried {location : Location} {v : Json} {kind : ChannelKind}
    {e : OpenEntity} (canonical : v.Canonical) (ok : readChannelBuilder location v kind = .ok e) :
    Members.Carried builderFields e.extra := by
  unfold readChannelBuilder at ok
  simp only [Checked.bind_eq_ok] at ok
  obtain ⟨r, taken, _, _, _, _, ok⟩ := ok
  cases ok
  exact Record.carried_rest builderFields canonical taken

theorem readOverrideBuilder_carried {location : Location} {v : Json} {kind : SubjectKind}
    {e : OpenEntity} (canonical : v.Canonical) (ok : readOverrideBuilder location v kind = .ok e) :
    Members.Carried builderFields e.extra := by
  unfold readOverrideBuilder at ok
  simp only [Checked.bind_eq_ok] at ok
  obtain ⟨r, taken, _, _, _, _, ok⟩ := ok
  cases ok
  exact Record.carried_rest builderFields canonical taken

end Schema

/-! ## Artifacts -/

def Entity.Tidy : Entity → Prop
  | .channel c => c.Tidy
  | .category c => c.Tidy
  | .role _ | .builder _ => True

/-- All that is declared is tidy. -/
structure Setup.Tidy (s : Setup) : Prop where
  channels : ∀ c ∈ s.channels, c.Tidy
  categories : ∀ c ∈ s.categories, c.Tidy

theorem Setup.tidy_ofEntities {entities : List Entity} (each : ∀ e ∈ entities, e.Tidy) :
    (Setup.ofEntities entities).Tidy where
  channels c mem := by
    obtain ⟨e, there, same⟩ := List.mem_filterMap.1 mem
    cases e <;> cases same
    exact each _ there
  categories c mem := by
    obtain ⟨e, there, same⟩ := List.mem_filterMap.1 mem
    cases e <;> cases same
    exact each _ there

/-- Inheritance makes no further fields. -/
theorem Channel.Tidy.shownUnder {parents : List Override} {c : Channel} (tidy : c.Tidy)
    (above : ∀ o ∈ parents, o.Tidy) : (c.shownUnder parents).settled.Tidy where
  overrides o mem := by
    have here : o ∈ inheritOverrides c.overrides parents := (sortOverrides_perm _).mem_iff.1 mem
    obtain ⟨source, own | parent, same⟩ := extra_of_mem_inheritOverrides here
    · exact ⟨same ▸ (tidy.overrides source own).extra⟩
    · exact ⟨same ▸ (above source parent).extra⟩
  options := tidy.options

theorem Docket.tidy_kept {k : Docket} (complete : k.Complete) (tidy : k.category.Tidy) :
    k.kept.settled.Tidy where
  channels c mem := by
    obtain ⟨r, admitted, rfl⟩ := mem_settled_keptChannels (mem_sortById.1 mem)
    exact (tidy.channels _ (complete.mem_of_admitted admitted)).shownUnder tidy.overrides
  overrides o mem := tidy.overrides o ((sortOverrides_perm _).mem_iff.1 mem)

theorem Guild.unrepeated_written {g : Guild} (channels : ∀ c ∈ g.channels, c.Tidy)
    (categories : ∀ c ∈ g.categories, c.Tidy) : g.written.Unrepeated := by
  refine .obj ?_ ?_
  · show ["guildId", "globalChannels", "globalRoles", "categories"].Nodup
    decide
  · have first : (Json.arr (g.channels.map Channel.written)).Unrepeated :=
      .arr (List.forall_mem_map.2 fun c mem => (channels c mem).agrees.arranged.unrepeated)
    have second : (Json.arr (g.roles.map Role.written)).Unrepeated :=
      .arr (List.forall_mem_map.2 fun role _ => role.arranged.unrepeated)
    have third : (Json.arr (g.categories.map Category.written)).Unrepeated :=
      .arr (List.forall_mem_map.2 fun c mem => (categories c mem).agrees.arranged.unrepeated)
    simp [first, second, third, Json.Unrepeated.str]

/-- The artifact of tidy declarations has no key twice. -/
theorem resolve_unrepeated {σ : Type} {h : Host σ} {d : Declaration} {s : σ} {g : Guild}
    (ok : (resolve h d s).1 = .ok g) (tidy : d.setup.Tidy) : g.written.Unrepeated := by
  obtain ⟨rows, dockets, proceedings, _⟩ := resolve_proceedings ok
  have inSetup := fun k => proceedings.category_mem (k := k)
  obtain ⟨globals, categories, complete, rfl⟩ := proceedings
  refine Guild.unrepeated_written (fun c mem => ?_) (fun c mem => ?_)
  · obtain ⟨r, admitted, rfl⟩ := mem_settled_keptChannels (mem_sortById.1 mem)
    exact (tidy.channels _ (globals.mem_of_admitted admitted)).shownUnder (List.forall_mem_nil _)
  · obtain ⟨_, kept, rfl⟩ := List.mem_map.1 (mem_sortById.1 mem)
    obtain ⟨k, there, rfl⟩ := List.mem_map.1 kept
    exact Docket.tidy_kept (complete k there) (tidy.categories _ (inSetup k there))

theorem Capability.read_tidy {c : Capability} {v : Json} {e : Entity} (canonical : v.Canonical)
    (ok : c.read v = .ok e) : e.Tidy := by
  obtain ⟨_, _, _, read, rfl⟩ | ⟨_, _, read, rfl⟩ | ⟨_, rfl⟩ | ⟨_, rfl⟩ := Capability.read_eq_ok ok
  · obtain ⟨_, of⟩ := Schema.channelOf_readChannel read
    exact of.tidy canonical
  · obtain ⟨_, of⟩ := Schema.categoryOf_readCategory read
    exact of.tidy canonical
  all_goals trivial

namespace Script

/-- What is accepted through a context is tidy: the argument was a script value, and what becomes
of these has its members in order. -/
theorem tidy_of_accepted? {r : ContextRef} {m : Machine} {e : Event} {a : Accepted}
    (declares : e.accepted? r m = some a) : a.entity.Tidy := by
  unfold Event.accepted? at declares
  split at declares
  · next c _ t =>
    split at declares
    · obtain ⟨entity, read, rfl⟩ := Option.map_eq_some_iff.1 declares
      unfold Machine.entity at read
      split at read
      · next json _ given =>
        refine Capability.read_tidy (toJson_canonical given) (c := c) ?_
        revert read
        cases c.read json with
        | ok e => exact fun same => congrArg Except.ok (Option.some.inj same)
        | error e => exact nofun
      · cases read
    · cases declares
  · cases declares

theorem tidy_of_accepted {r : ContextRef} {m : Machine} {events : List Event} :
    ∀ a ∈ accepted r m events, a.entity.Tidy := by
  induction events generalizing m with
  | nil => exact List.forall_mem_nil _
  | cons e events ih =>
    intro a mem
    rcases List.mem_append.1 mem with here | later
    · exact tidy_of_accepted? (Option.mem_toList.1 here)
    · exact ih a later

theorem Session.tidy (k : Session) : k.setup.Tidy :=
  Setup.tidy_ofEntities (List.forall_mem_map.2 tidy_of_accepted)

end Script

/-- In the written form of whatever is accepted no key is given twice, and the form that a script
gets is the same in order, but for the markers of predicates. No key is given twice in an artifact
either. -/
theorem written_arranged :
    (∀ v : Json, v.Canonical →
      (∀ location role, Schema.readRole location v = .ok role →
        role.written.Arranged role.toScript) ∧
      (∀ expected location c, Schema.readChannel expected location v = .ok c → c.Agrees) ∧
      (∀ location c, Schema.readCategory location v = .ok c → c.Agrees) ∧
      (∀ location o, Schema.readOverride location v = .ok o → o.written.Arranged o.toScript) ∧
      (∀ location kind e, Schema.readChannelBuilder location v kind = .ok e →
        e.written.Arranged e.toScript) ∧
      ∀ location kind e, Schema.readOverrideBuilder location v kind = .ok e →
        e.written.Arranged e.toScript) ∧
    ∀ tree entry m p g, (compile tree entry m p).1 = .ok g → g.written.Unrepeated := by
  refine ⟨fun v canonical => ⟨fun _ role _ => role.arranged, fun _ _ _ ok => ?_, fun _ _ ok => ?_,
    fun _ _ ok => ?_, fun _ _ _ ok => ?_, fun _ _ _ ok => ?_⟩, fun _ _ _ _ _ ok => ?_⟩
  · obtain ⟨_, of⟩ := Schema.channelOf_readChannel ok
    exact (of.tidy canonical).agrees
  · obtain ⟨_, of⟩ := Schema.categoryOf_readCategory ok
    exact (of.tidy canonical).agrees
  · exact (Schema.readOverride_tidy canonical ok).arranged
  · exact Schema.OpenEntity.arranged (Schema.readChannelBuilder_carried canonical ok)
  · exact Schema.OpenEntity.arranged (Schema.readOverrideBuilder_carried canonical ok)
  · obtain ⟨_, _, _, _, k, _, _, _, same, _, resolved⟩ := compile_session ok
    exact resolve_unrepeated resolved (same ▸ k.tidy)

theorem written_arranged_upstairs :
    (∃ c, Schema.readCategory ⟨"category", []⟩ Schema.upstairsArgument = .ok c ∧ c.Agrees) ∧
    (∃ c, Schema.readChannel none ⟨"text", []⟩ Schema.loungeArgument = .ok c ∧ c.Agrees) ∧
    (∃ role, Schema.readRole ⟨"role", []⟩ Schema.ownerArgument = .ok role ∧
      role.written.Arranged role.toScript) ∧
    (∃ e, Schema.readOverrideBuilder ⟨"role", []⟩ Schema.boothArgument .role = .ok e ∧
      e.written.Arranged e.toScript) ∧
    ∃ g, (compile Sample.houseTree "main.lua" {}).1 = .ok g ∧ g.written.Unrepeated := by
  obtain ⟨category, categoryRead⟩ :
      ∃ c, Schema.readCategory ⟨"category", []⟩ Schema.upstairsArgument = .ok c := ⟨_, rfl⟩
  obtain ⟨channel, channelRead⟩ :
      ∃ c, Schema.readChannel none ⟨"text", []⟩ Schema.loungeArgument = .ok c := ⟨_, rfl⟩
  obtain ⟨role, roleRead⟩ :
      ∃ role, Schema.readRole ⟨"role", []⟩ Schema.ownerArgument = .ok role := ⟨_, rfl⟩
  obtain ⟨e, built⟩ :
      ∃ e, Schema.readOverrideBuilder ⟨"role", []⟩ Schema.boothArgument .role = .ok e := ⟨_, rfl⟩
  obtain ⟨g, compiled⟩ := Sample.houseTree_compiles
  obtain ⟨entities, artifacts⟩ := written_arranged
  have booth := entities _ Schema.boothArgument_canonical
  have upstairs := entities _ Schema.upstairsArgument_canonical
  exact ⟨⟨category, categoryRead, upstairs.2.2.1 _ _ categoryRead⟩,
    ⟨channel, channelRead, (entities _ Schema.loungeArgument_canonical).2.1 _ _ _ channelRead⟩,
    ⟨role, roleRead, (entities _ Schema.ownerArgument_canonical).1 _ _ roleRead⟩,
    ⟨e, built, booth.2.2.2.2.2 _ _ _ built⟩, g, compiled, artifacts _ _ _ _ _ compiled⟩

end GuildPlan
