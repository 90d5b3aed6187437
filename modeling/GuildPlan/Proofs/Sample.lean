import GuildPlan.Compilation
import GuildPlan.Proofs.Recording

/-
  A small declaration to try general statements on: a category that overrides two subjects,
  with two channels in it of which one has a predicate, next to one global channel.
-/
namespace GuildPlan.Sample

def residents : Override :=
  { id := ⟨7, by decide, by decide⟩, kind := .role, extra := []
    permissions := (∅ : PermissionTable).insert "SEND_MESSAGES" .allow }

def visitor : Override :=
  { id := ⟨5, by decide, by decide⟩, kind := .user, extra := []
    permissions := (∅ : PermissionTable).insert "SEND_MESSAGES" .deny }

/-- The visitor again, with that permission left open. -/
def openVisitor : Override :=
  { visitor with permissions := (∅ : PermissionTable).insert "SEND_MESSAGES" .inherit }

def garden : Channel :=
  { id := ⟨1, by decide, by decide⟩, name := "garden", kind := .voice
    overrides := [visitor, residents], options := [], inclusion := none }

def lounge : Channel :=
  { id := ⟨3, by decide, by decide⟩, name := "lounge", kind := .text
    overrides := [openVisitor], options := [], inclusion := some ⟨0⟩ }

def attic : Channel :=
  { id := ⟨2, by decide, by decide⟩, name := "attic", kind := .text
    overrides := [], options := [], inclusion := none }

def role (id : Snowflake) (name : String) : Role :=
  { id, name, permissions := 2048, color := none, hoist := false, mentionable := true }

/-- The category, with its channels and overrides in some order. -/
def upstairs (channels : List Channel) (overrides : List Override) : Category :=
  { id := ⟨4, by decide, by decide⟩, name := "upstairs", channels, overrides
    inclusion := some ⟨1⟩ }

def house : Declaration :=
  { guildId := "house"
    setup :=
      { channels := [garden]
        roles := [role residents.id "residents", role ⟨6, by decide, by decide⟩ "owner"]
        categories := [upstairs [lounge, attic] [visitor, residents]] } }

/-- A host that lets every second channel pass that it is asked about. -/
def alternating : Host Nat where
  test _ _ n := (.ok (n % 2 == 0), n + 1)
  note _ n := n

theorem house_distinct : house.setup.Distinct where
  globals := by decide
  categories := by decide
  nested := by decide
  channelIds := by decide
  roleIds := by decide

/-! ## The house as it is declared -/

open Script

/-- The argument of a role. -/
def roleArgument (id name : String) : Json := .obj [("id", .str id), ("name", .str name)]

/-- Overrides for some roles, which may all send messages or not. -/
def overrideArguments (roles : List String) (setting : Bool) : Json :=
  .arr (roles.map fun role => .obj [("id", .str role),
    ("permissions", .obj [("SEND_MESSAGES", .bool setting)]), ("type", .str "role")])

/-- The argument of a channel in which some roles may send messages. -/
def channelArgument (id name kind : String) (roles : List String) : Json :=
  .obj [("id", .str id), ("name", .str name), ("overrides", overrideArguments roles true),
    ("type", .str kind)]

/-- Calls that declare a house. The last two are refused: one id is taken by then, and the
other is no id. -/
def houseCalls : List Call :=
  [⟨.globalChannel .voice, .ok (channelArgument "1" "garden" "voice" ["8", "7"])⟩,
    ⟨.category, .ok (.obj [("channels", .arr [channelArgument "3" "lounge" "text" ["7"],
      channelArgument "2" "attic" "text" []]), ("id", .str "4"), ("include", Handle.marker ⟨0⟩),
      ("name", .str "upstairs"), ("overrides", overrideArguments ["8", "7"] false)])⟩,
    ⟨.globalRole, .ok (roleArgument "7" "residents")⟩,
    ⟨.globalChannel .text, .ok (channelArgument "2" "cellar" "text" [])⟩,
    ⟨.globalRole, .ok (roleArgument "0" "owner")⟩]

/-- What these calls declare. -/
def declaredHouse : Declaration :=
  { guildId := "house", setup := (Context.afterAll (some {}) houseCalls).getD {} }

theorem declaredHouse_built :
    Context.afterAll (some {}) houseCalls = some declaredHouse.setup := by
  obtain ⟨s, open_⟩ := Context.afterAll_open {} houseCalls
  unfold declaredHouse
  rw [open_]
  rfl

def word (s : String) : Expr := .str s.toUTF8

def record (fields : List (String × Expr)) : Expr :=
  .table [] (fields.map fun f => (word f.1, f.2))

/-- A script that declares a role and a category, with a channel that its predicate admits
and one that it does not. -/
def houseScript : Block :=
  [.answer [record [("id", word "house"), ("setup", .function ["ctx"]
    [.run (.call (.get (.get (.var "ctx") (word "global")) (word "role"))
        [record [("id", word "7"), ("name", word "residents")]]),
      .run (.call (.get (.var "ctx") (word "category"))
        [record [("id", word "4"), ("name", word "upstairs"),
          ("include", .function ["channel"]
            [.answer [.equal (.get (.var "channel") (word "name")) (word "attic")]]),
          ("channels", .table
            [record [("id", word "3"), ("type", word "text"), ("name", word "lounge")],
              record [("id", word "2"), ("type", word "text"), ("name", word "attic")]] [])]])])]]]

def houseTree : Tree Source := ⟨[(["main.lua"], .file (some houseScript))], []⟩

theorem ok_of_isOk {ε α : Type} {x : Except ε α} (h : x.isOk) : ∃ a, x = .ok a := by
  cases x with
  | error e => cases h
  | ok a => exact ⟨a, rfl⟩

theorem ok_of_any {ε α : Type} {x : Except ε α} {p : α → Bool} (h : x.toOption.any p = true) :
    ∃ a, x = .ok a ∧ p a = true := by
  cases x with
  | error e => cases h
  | ok a => exact ⟨a, rfl, h⟩

/-- Whether something succeeds with a result and a machine that pass a test. -/
def succeeds {α : Type} (p : α → Machine → Bool) : EStateM.Result Failure Machine α → Bool
  | .ok a m => p a m
  | .error _ _ => false

theorem ok_of_succeeds {α : Type} {p : α → Machine → Bool} {r : EStateM.Result Failure Machine α}
    (h : succeeds p r = true) : ∃ a m, r = .ok a m ∧ p a m = true := by
  cases r with
  | ok a m => exact ⟨a, m, rfl, h⟩
  | error e m => cases h

theorem declaredHouse_resolves : ∃ g, (resolve alternating declaredHouse 0).1 = .ok g :=
  ok_of_isOk (by decide +kernel)

theorem houseTree_compiles : ∃ g, (compile houseTree "main.lua" {}).1 = .ok g :=
  ok_of_isOk (by decide +kernel)

/-! ## Scripts on their own -/

/-- A script without others beside it. -/
def alone (block : Block) : MountTable Source := .ofSources "main.lua" [("main.lua", some block)]

/-- A script for a guild, which declares one text channel. -/
def channelScript (guild : String) (fields : List (String × Expr)) : Block :=
  [.answer [record [("id", word guild), ("setup", .function ["ctx"]
    [.run (.call (.get (.get (.var "ctx") (word "global")) (word "text")) [record fields])])]]]

/-- A predicate that gives one answer about every channel. -/
def answering (b : Bool) : Expr := .function ["channel"] [.answer [.bool b]]

/-- A script with a channel that its predicate always admits. -/
def newsScripts : MountTable Source :=
  alone (channelScript "news"
    [("id", word "5"), ("name", word "news"), ("include", answering true)])

/-- A script with a channel that its predicate never admits. -/
def chatScripts : MountTable Source :=
  alone (channelScript "chat"
    [("id", word "6"), ("name", word "chat"), ("include", answering false)])

/-- A script with a channel that has a function as one of its options. -/
def callbackTree : Tree Source :=
  ⟨[(["main.lua"], .file (some (channelScript "callback"
    [("id", word "5"), ("name", word "news"), ("callback", answering true)])))], []⟩

/-! ## Scripts that load others -/

theorem newsScripts_evaluates : ∃ d m, evaluateEntry newsScripts Machine.boot = .ok d m ∧
    d.setup.channels.map Channel.inclusion = [some ⟨0⟩] := by
  have computed : succeeds (fun d _ => d.setup.channels.map Channel.inclusion == [some ⟨0⟩])
      (evaluateEntry newsScripts Machine.boot) = true := by
    decide +kernel
  obtain ⟨d, m, evaluated, handles⟩ := ok_of_succeeds computed
  exact ⟨d, m, evaluated, beq_iff_eq.1 handles⟩

end GuildPlan.Sample
