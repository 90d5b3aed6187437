import GuildPlan.Proofs.Attachment
import GuildPlan.Proofs.Ordering

/-
  Markers in artifacts. The predicates of channels and categories are dropped before an
  artifact is written, but what the schema passes through unexamined, the options of channels
  and the further fields of overrides, is written as it is. A function in there has become a
  marker, and that marker gets into the artifact. No marker gets there in another way, so
  where functions are attached as predicates only, the artifact has none.
-/
namespace GuildPlan

variable {σ : Type}

/-! ## Marked values -/

/-- A marker is somewhere in a value. -/
inductive Json.Marked : Json → Prop
  | here (handle : Handle) : Marked handle.marker
  | item {items : List Json} {v : Json} (mem : v ∈ items) (inside : v.Marked) : Marked (.arr items)
  | member {members : Members} {m : String × Json} (mem : m ∈ members) (inside : m.2.Marked) :
    Marked (.obj members)

/-- A marker is somewhere in the values of some members. -/
def Members.Marked (ms : Members) : Prop := ∃ m ∈ ms, m.2.Marked

def Override.Marked (o : Override) : Prop := Members.Marked o.extra

def Channel.Marked (c : Channel) : Prop :=
  Members.Marked c.options ∨ ∃ o ∈ c.overrides, o.Marked

def Category.Marked (c : Category) : Prop :=
  (∃ channel ∈ c.channels, channel.Marked) ∨ ∃ o ∈ c.overrides, o.Marked

@[simp] theorem Members.marked_cons (m : String × Json) (ms : Members) :
    Members.Marked (m :: ms) ↔ m.2.Marked ∨ Members.Marked ms := by
  simp [Members.Marked]

@[simp] theorem Members.marked_append (ms ms' : Members) :
    Members.Marked (ms ++ ms') ↔ Members.Marked ms ∨ Members.Marked ms' := by
  simp [Members.Marked, or_and_right, exists_or]

@[simp] theorem Members.not_marked_nil : ¬Members.Marked [] := nofun

namespace Json

@[simp] theorem not_marked_str (s : String) : ¬(Json.str s).Marked := nofun

@[simp] theorem not_marked_int (n : Int) : ¬(Json.int n).Marked := nofun

@[simp] theorem not_marked_bool (b : Bool) : ¬(Json.bool b).Marked := nofun

@[simp] theorem marked_arr_map {α : Type} (f : α → Json) (xs : List α) :
    (Json.arr (xs.map f)).Marked ↔ ∃ x ∈ xs, (f x).Marked := by
  constructor
  · intro marked
    cases marked with
    | item mem inside =>
      obtain ⟨x, there, rfl⟩ := List.mem_map.1 mem
      exact ⟨x, there, inside⟩
  · rintro ⟨x, there, inside⟩
    exact .item (List.mem_map_of_mem there) inside

/-- An object with more than one member is no marker itself. -/
@[simp] theorem marked_obj (m m' : String × Json) (ms : Members) :
    (Json.obj (m :: m' :: ms)).Marked ↔ Members.Marked (m :: m' :: ms) := by
  constructor
  · intro marked
    cases marked with
    | member mem inside => exact ⟨_, mem, inside⟩
  · rintro ⟨_, mem, inside⟩
    exact .member mem inside

@[simp] theorem not_marked_settings (t : PermissionTable) :
    ¬(Json.obj (t.map (Json.str ·.text)).entries).Marked := by
  have texts : ∀ m ∈ (t.map (Json.str ·.text)).entries, ∃ s, m.2 = .str s := by
    intro m mem
    obtain ⟨e, _, rfl⟩ := List.mem_map.1 mem
    exact ⟨e.2.text, rfl⟩
  intro marked
  generalize (t.map (Json.str ·.text)).entries = ms at texts marked
  cases marked with
  | here handle =>
    obtain ⟨s, text⟩ := texts _ List.mem_cons_self
    cases text
  | @member _ m mem inside =>
    obtain ⟨s, text⟩ := texts m mem
    rw [text] at inside
    exact not_marked_str s inside

end Json

/-! ## Marked artifacts -/

theorem Override.marked_written (o : Override) : o.written.Marked ↔ o.Marked := by
  simp [written, fields, Override.Marked]

theorem Channel.marked_written (c : Channel) : c.written.Marked ↔ c.Marked := by
  simp [written, fields, Channel.Marked, Override.marked_written, or_comm]

theorem Role.not_marked_written (r : Role) : ¬r.written.Marked := by
  unfold written fields
  cases r.color <;> simp

theorem Category.marked_written (c : Category) : c.written.Marked ↔ c.Marked := by
  simp [written, fields, Category.Marked, Override.marked_written, Channel.marked_written]

/-- Something in a guild has an option or a further field with a marker in it. -/
def Guild.Marked (g : Guild) : Prop :=
  (∃ c ∈ g.channels, c.Marked) ∨ ∃ c ∈ g.categories, c.Marked

theorem Guild.marked_written (g : Guild) : g.written.Marked ↔ g.Marked := by
  simp [written, Guild.Marked, Channel.marked_written, Category.marked_written,
    Role.not_marked_written]

/-! ## Marked declarations -/

def Entity.Marked : Entity → Prop
  | .channel c => c.Marked
  | .category c => c.Marked
  | .role _ | .builder _ => False

def Setup.Marked (s : Setup) : Prop :=
  (∃ c ∈ s.channels, c.Marked) ∨ ∃ c ∈ s.categories, c.Marked

theorem Override.Marked.of_extra {o source : Override} (marked : o.Marked)
    (same : o.extra = source.extra) : source.Marked := by
  unfold Override.Marked at *
  rw [← same]
  exact marked

/-- An override has its further fields from one that was there before. -/
theorem extra_of_mem_inheritOverride {parent o : Override} {own : List Override}
    (mem : o ∈ inheritOverride parent own) :
    ∃ source, (source ∈ own ∨ source = parent) ∧ o.extra = source.extra := by
  induction own with
  | nil => exact ⟨parent, .inr rfl, congrArg Override.extra (List.mem_singleton.1 mem)⟩
  | cons first rest ih =>
    unfold inheritOverride at mem
    split at mem
    · rcases List.mem_cons.1 mem with rfl | mem
      · exact ⟨first, .inl List.mem_cons_self, rfl⟩
      · exact ⟨o, .inl (List.mem_cons_of_mem _ mem), rfl⟩
    · rcases List.mem_cons.1 mem with rfl | mem
      · exact ⟨o, .inl List.mem_cons_self, rfl⟩
      · obtain ⟨source, there, same⟩ := ih mem
        exact ⟨source, there.imp (List.mem_cons_of_mem _) id, same⟩

theorem extra_of_mem_inheritOverrides {o : Override} {own parents : List Override}
    (mem : o ∈ inheritOverrides own parents) :
    ∃ source, (source ∈ own ∨ source ∈ parents) ∧ o.extra = source.extra := by
  induction parents generalizing own with
  | nil => exact ⟨o, .inl mem, rfl⟩
  | cons parent parents ih =>
    obtain ⟨source, there | there, same⟩ := ih mem
    · obtain ⟨source', there', same'⟩ := extra_of_mem_inheritOverride there
      refine ⟨source', there'.imp id fun here => ?_, same.trans same'⟩
      exact here ▸ List.mem_cons_self
    · exact ⟨source, .inr (List.mem_cons_of_mem _ there), same⟩

/-- A channel that is marked in the end was marked, or an override of its category was. -/
theorem Channel.marked_of_shownUnder {parents : List Override} {c : Channel}
    (marked : (c.shownUnder parents).settled.Marked) : c.Marked ∨ ∃ o ∈ parents, o.Marked := by
  rcases marked with options | ⟨o, mem, extra⟩
  · exact .inl (.inl options)
  · have here : o ∈ inheritOverrides c.overrides parents :=
      (sortOverrides_perm _).mem_iff.1 mem
    obtain ⟨source, own | parent, same⟩ := extra_of_mem_inheritOverrides here
    · exact .inl (.inr ⟨source, own, extra.of_extra same⟩)
    · exact .inr ⟨source, parent, extra.of_extra same⟩

theorem mem_settled_keptChannels {parents : List Override} {rows : List Hearing} {c : Channel}
    (mem : c ∈ (keptChannels parents rows).map Channel.settled) :
    ∃ r ∈ rows.filter Hearing.admitted, c = (r.channel.shownUnder parents).settled := by
  rw [keptChannels_settled] at mem
  obtain ⟨r, admitted, rfl⟩ := List.mem_map.1 mem
  exact ⟨r, admitted, rfl⟩

theorem Docket.marked_of_kept {k : Docket} (complete : k.Complete)
    (marked : k.kept.settled.Marked) : k.category.Marked := by
  rcases marked with ⟨c, mem, inside⟩ | ⟨o, mem, extra⟩
  · have here := mem_sortById.1 mem
    obtain ⟨r, admitted, rfl⟩ := mem_settled_keptChannels here
    rcases Channel.marked_of_shownUnder inside with own | below
    · exact .inl ⟨r.channel, complete.mem_of_admitted admitted, own⟩
    · exact .inr below
  · exact .inr ⟨o, (sortOverrides_perm _).mem_iff.1 mem, extra⟩

/-- A resolution makes no markers. -/
theorem resolve_marked {h : Host σ} {d : Declaration} {s : σ} {g : Guild}
    (ok : (resolve h d s).1 = .ok g) (marked : g.Marked) : d.setup.Marked := by
  obtain ⟨rows, dockets, proceedings, _⟩ := resolve_proceedings ok
  have inSetup := fun k => proceedings.category_mem (k := k)
  obtain ⟨globals, categories, complete, rfl⟩ := proceedings
  rcases marked with ⟨c, mem, inside⟩ | ⟨c, mem, inside⟩
  · have here := mem_sortById.1 mem
    obtain ⟨r, admitted, rfl⟩ := mem_settled_keptChannels here
    rcases Channel.marked_of_shownUnder inside with own | ⟨_, nowhere, _⟩
    · exact .inl ⟨r.channel, globals.mem_of_admitted admitted, own⟩
    · cases nowhere
  · have here := mem_sortById.1 mem
    obtain ⟨_, kept, rfl⟩ := List.mem_map.1 here
    obtain ⟨k, there, rfl⟩ := List.mem_map.1 kept
    exact .inr ⟨k.category, inSetup k there, Docket.marked_of_kept (complete k there) inside⟩

namespace Script

/-! ## Functions in arguments -/

/-- A function is somewhere in a value. -/
inductive Heap.HoldsFunction (h : Heap) : Value → Prop
  | here (f : FunctionRef) : h.HoldsFunction (.function f)
  | entry {r : TableRef} {e : Value × Value} (mem : e ∈ (h.table r).entries)
    (inside : h.HoldsFunction e.2) : h.HoldsFunction (.table r)

/-- A table holds a function elsewhere than under some keys. -/
def Heap.Stray (h : Heap) (t : TableRef) (known : List String) : Prop :=
  ∃ e ∈ (h.table t).entries, (∀ key ∈ known, e.1 ≠ .text key) ∧ h.HoldsFunction e.2

/-- An accepted argument holds a function that is no predicate: in a table of a channel, or of
a category, elsewhere than under `include`, or in what the category lists under `channels`
elsewhere than in the predicates of the channels there. -/
def Accepted.Stray (a : Accepted) : Prop :=
  match a.entity with
  | .channel _ => a.heap.Stray a.argument ["include"]
  | .category _ => a.heap.Stray a.argument ["include", "channels"] ∨
    ∃ n t, a.heap.nested? a.argument n = some t ∧ a.heap.Stray t ["include"]
  | .role _ | .builder _ => False

variable {h : Heap} {g : Registry} {t : TableRef}

/-- A marker in the JSON of a value was a function in the value. -/
theorem Stands.holdsFunction {v : Value} {j : Json} (stands : Stands h g v j)
    (marked : j.Marked) : h.HoldsFunction v := by
  induction stands with
  | function => exact .here _
  | @list r items each ih =>
    cases marked with
    | item mem inside =>
      obtain ⟨n, within, rfl⟩ := List.getElem_of_mem mem
      have holds := ih n within inside
      -- A function is in the item, so there is an entry for it in the table.
      have there : (h.table r).get (.int (n + 1 : Nat)) ≠ .nil := by
        intro missing
        rw [missing] at holds
        cases holds
      exact .entry ((h.table r).mem_of_get there) holds
  | record source unreserved _ there _ _ ih =>
    cases marked with
    | here handle => exact absurd List.mem_cons_self unreserved
    | member mem inside => exact .entry (there _ mem) (ih _ mem inside)
  | _ => cases marked

theorem stray_of_member {members : Members} {m : String × Json} {known : List String}
    (stands : Stands h g (.table t) (.obj members)) (mem : m ∈ members) (marked : m.2.Marked)
    (other : m.1 ∉ known) : h.Stray t known := by
  obtain ⟨e, there, named, here⟩ := stands.source mem
  refine ⟨e, there, fun key inside same => ?_, here.holdsFunction marked⟩
  rw [same, memberName?_text] at named
  exact other (Option.some.inj named ▸ inside)

/-- A marked override was read from a marked member. -/
theorem stray_of_overrides {r : Schema.Record} {overrides : List Override} {o : Override}
    {known : List String} (stands : Stands h g (.table t) (.obj r.members))
    (read : Schema.OverridesOf r overrides) (mem : o ∈ overrides) (marked : o.Marked)
    (other : "overrides" ∉ known) : h.Stray t known := by
  obtain ⟨vs, listed, each⟩ := read
  obtain ⟨v, source, place, ok⟩ := Schema.exists_of_mem_right each mem
  obtain ⟨r', whole, extra⟩ := Schema.extra_of_readOverride ok
  obtain ⟨m, there, inner⟩ := marked
  rw [extra] at there
  have item : v.Marked := by
    rw [whole]
    exact .member (Schema.Record.mem_of_rest there).1 inner
  cases vs with
  | nil => cases source
  | cons first vs =>
    have found := mem_of_lookup (Schema.Record.get?_of_list listed)
    exact stray_of_member stands found (.item source item) other

/-- A marked channel was read from a table that holds a function elsewhere than under
`include`. -/
theorem stray_of_channel {r : Schema.Record} {v : Json} {c : Channel}
    (stands : Stands h g (.table t) (.obj r.members)) (read : Schema.ChannelOf r v c)
    (marked : c.Marked) : h.Stray t ["include"] := by
  rcases marked with ⟨m, mem, inside⟩ | ⟨o, mem, inside⟩
  · rw [read.options] at mem
    obtain ⟨there, other⟩ := Schema.Record.mem_of_rest mem
    -- The options are under other names than the fields of a channel, and `include` is one.
    refine stray_of_member stands there inside fun named => other ?_
    rw [List.mem_singleton.1 named]
    decide
  · exact stray_of_overrides stands read.overrides mem inside (by decide)

theorem Accepted.stray_of_read {c : Capability} {j : Json} {entity : Entity}
    (stands : Stands h g (.table t) j) (ok : c.read j = .ok entity) (marked : entity.Marked) :
    Accepted.Stray ⟨entity, h, t⟩ := by
  obtain ⟨_, _, channel, read, rfl⟩ | ⟨_, category, read, rfl⟩ | ⟨_, rfl⟩ | ⟨_, rfl⟩ :=
    Capability.read_eq_ok ok
  · obtain ⟨r, of⟩ := Schema.channelOf_readChannel read
    exact stray_of_channel (of.whole ▸ stands) of marked
  · obtain ⟨r, rfl, _, overrides, vs, listed, each⟩ := Schema.categoryOf_readCategory read
    rcases marked with ⟨channel, mem, inside⟩ | ⟨o, mem, inside⟩
    · obtain ⟨n, within, rfl⟩ := List.getElem_of_mem mem
      obtain ⟨t', r', _, there, stands', of⟩ := nested_of_list stands listed each n within
      exact .inr ⟨n, t', there, stray_of_channel stands' of inside⟩
    · exact .inl (stray_of_overrides stands overrides mem inside (by decide))
  all_goals exact marked

theorem Setup.marked_ofEntities {entities : List Entity}
    (marked : (Setup.ofEntities entities).Marked) : ∃ e ∈ entities, e.Marked := by
  rcases marked with ⟨c, mem, inside⟩ | ⟨c, mem, inside⟩
  · obtain ⟨e, there, same⟩ := List.mem_filterMap.1 mem
    cases e <;> cases same
    exact ⟨_, there, inside⟩
  · obtain ⟨e, there, same⟩ := List.mem_filterMap.1 mem
    cases e <;> cases same
    exact ⟨_, there, inside⟩

theorem Session.stray_of_marked {k : Session} (marked : k.setup.Marked) :
    ∃ a ∈ k.accepted, a.Stray := by
  obtain ⟨_, mem, inside⟩ := Setup.marked_ofEntities marked
  obtain ⟨a, there, rfl⟩ := List.mem_map.1 mem
  obtain ⟨c, j, stands, read⟩ := read_of_accepted a there
  exact ⟨a, there, Accepted.stray_of_read stands read inside⟩

/-! ## Compilations -/

/-- A compilation whose artifact has a marker in it accepted an argument with a function that
is no predicate. -/
theorem stray_of_artifact_marked {tree : Tree Source} {entry : String} {m : Machine} {p : Platform}
    {g : Guild} (ok : (compile tree entry m p).1 = .ok g) : ∃ scripts d m' before, ∃ k : Session,
      MountTable.scan tree entry = .ok scripts ∧ evaluateEntry scripts (m.reset p) = .ok d m' ∧
      k.start = ((m.reset p).afterAll before).after .opened ∧ d.setup = k.setup ∧
      m' = k.ended.after (.note (declared d)) ∧
      (g.written.Marked → ∃ a ∈ k.accepted, a.Stray) := by
  obtain ⟨scripts, d, m', before, k, scanned, evaluated, start, same, rest, resolved⟩ :=
    compile_session ok
  refine ⟨scripts, d, m', before, k, scanned, evaluated, start, same, rest, fun marked => ?_⟩
  have declared := resolve_marked resolved (g.marked_written.1 marked)
  exact Session.stray_of_marked (same ▸ declared)

/-- A function among the options of a channel leaves its marker in the artifact. -/
theorem callbackTree_marked :
    ∃ g, (compile Sample.callbackTree "main.lua" {}).1 = .ok g ∧ g.Marked := by
  have computed : ((compile Sample.callbackTree "main.lua" {}).1.toOption.any fun g =>
      g.channels.any fun c => c.options.any fun m => m.2.marker?.isSome) = true := by
    decide +kernel
  obtain ⟨g, ok, channels⟩ := Sample.ok_of_any computed
  obtain ⟨c, there, options⟩ := List.any_eq_true.1 channels
  obtain ⟨m, mem, marks⟩ := List.any_eq_true.1 options
  obtain ⟨handle, marks⟩ := Option.isSome_iff_exists.1 marks
  refine ⟨g, ok, .inl ⟨c, there, .inl ⟨m, mem, ?_⟩⟩⟩
  rw [(Json.marker?_eq_some.1 marks).1]
  exact .here handle

theorem stray_of_artifact_marked_callback :
    ∃ g, (compile Sample.callbackTree "main.lua" {}).1 = .ok g ∧ ∃ k : Session,
      ∃ a ∈ k.accepted, a.Stray := by
  obtain ⟨g, ok, marked⟩ := callbackTree_marked
  obtain ⟨_, _, _, _, k, _, _, _, _, _, stray⟩ := stray_of_artifact_marked ok
  exact ⟨g, ok, k, stray (g.marked_written.2 marked)⟩

theorem artifact_with_marker :
    ∃ g, (compile Sample.callbackTree "main.lua" {}).1 = .ok g ∧ g.written.Marked := by
  obtain ⟨g, ok, marked⟩ := callbackTree_marked
  exact ⟨g, ok, g.marked_written.2 marked⟩

end Script
end GuildPlan
