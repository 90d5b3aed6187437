import GuildPlan.Failure
import GuildPlan.KeyMap
import GuildPlan.Permission

/-
  Permission overrides of one subject, and what inheritance and the remote platform make
  of them.
-/
namespace GuildPlan

/-- Whom an override applies to; roles come before users in the canonical order. -/
inductive SubjectKind
  | role
  | user
  deriving DecidableEq

namespace SubjectKind

def text : SubjectKind → String
  | .role => "role"
  | .user => "user"

def ofText? : String → Option SubjectKind
  | "role" => some .role
  | "user" => some .user
  | _ => none

def rank : SubjectKind → Nat
  | .role => 0
  | .user => 1

/-- The remote platform's word for a subject of this kind. -/
def remoteText : SubjectKind → String
  | .role => "role"
  | .user => "member"

end SubjectKind

/-- Settings by permission key, in key order. -/
abbrev PermissionTable := KeyMap Setting

namespace PermissionTable

/-- One entry of the parent's table joins the own one. -/
def take (own : PermissionTable) (key : String) (parent : Setting) : PermissionTable :=
  own.insert key (((own.get? key).getD .inherit).orParent parent)

/-- Fills what the own table leaves open from the parent's: a key that is absent is as open
as one that is set to inherit. -/
def inheritFrom (own parent : PermissionTable) : PermissionTable :=
  parent.entries.foldl (fun own e => take own e.1 e.2) own

end PermissionTable

structure Override where
  id : Snowflake
  kind : SubjectKind
  permissions : PermissionTable
  /-- Fields of the platform that the library carries without looking at them. -/
  extra : Members

/-- An override as the remote platform takes it. -/
structure Overwrite where
  allow : PermissionBits
  deny : PermissionBits
  kind : SubjectKind
  id : Snowflake
  deriving DecidableEq

namespace Override

/-- The override with its open permissions filled from its parent's. -/
def inheritFrom (own parent : Override) : Override :=
  { own with permissions := PermissionTable.inheritFrom own.permissions parent.permissions }

/-- The bits that the explicit settings allow and deny, or the first key without a bit. -/
def bits : List (String × Setting) → PermissionBits × PermissionBits →
    Except Failure (PermissionBits × PermissionBits)
  | [], acc => .ok acc
  | (_, .inherit) :: rest, acc => bits rest acc
  | (key, setting) :: rest, (allow, deny) =>
    match Permission.flag? key with
    | none => .error (.unknownPermission key)
    | some flag =>
      bits rest (if setting = .allow then (allow ||| flag, deny) else (allow, deny ||| flag))

/-- The override in the form of the remote platform. -/
def overwrite (o : Override) : Except Failure Overwrite := do
  let (allow, deny) ← bits o.permissions.entries (0, 0)
  return { allow, deny, kind := o.kind, id := o.id }

/-- The members of the written form, in their order. -/
def fields (o : Override) : Members :=
  [("id", .str o.id.text), ("type", .str o.kind.text),
    ("permissions", .obj (o.permissions.map (Json.str ·.text)).entries)] ++ o.extra

/-- The form in which an artifact holds the override. -/
def written (o : Override) : Json := .obj o.fields

/-- The form in which a script gets the override back. -/
def toScript (o : Override) : Json := .obj (Members.ofList o.fields)

end Override
end GuildPlan
