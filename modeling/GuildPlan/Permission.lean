/-
  Permission bits of the remote platform, and the settings of an override.

  A setting is a tri-state: a permission is allowed, denied, or left to the parent.
-/
namespace GuildPlan

/-- A set of permissions, one bit each. -/
abbrev PermissionBits := BitVec 64

namespace Permission

/-- The bits that stand for a permission: 0 to 46 and 48 to 50. -/
def knownBits : PermissionBits := 2111062325329919

/-- The permissions that an override may name, with the number of each one's bit. -/
def table : List (String × Nat) :=
  [("CREATE_INSTANT_INVITE", 0), ("MANAGE_CHANNELS", 4), ("ADD_REACTIONS", 6),
   ("PRIORITY_SPEAKER", 8), ("STREAM", 9), ("VIEW_CHANNEL", 10), ("SEND_MESSAGES", 11),
   ("SEND_TTS_MESSAGES", 12), ("MANAGE_MESSAGES", 13), ("EMBED_LINKS", 14),
   ("ATTACH_FILES", 15), ("READ_MESSAGE_HISTORY", 16), ("MENTION_EVERYONE", 17),
   ("USE_EXTERNAL_EMOJIS", 18), ("CONNECT", 20), ("SPEAK", 21), ("MUTE_MEMBERS", 22),
   ("DEAFEN_MEMBERS", 23), ("MOVE_MEMBERS", 24), ("USE_VAD", 25), ("MANAGE_ROLES", 28),
   ("MANAGE_WEBHOOKS", 29), ("USE_APPLICATION_COMMANDS", 31), ("MANAGE_THREADS", 34),
   ("CREATE_PUBLIC_THREADS", 35), ("CREATE_PRIVATE_THREADS", 36),
   ("SEND_MESSAGES_IN_THREADS", 38)]

/-- The number of a permission's bit. -/
def bit? (key : String) : Option Nat := table.lookup key

/-- The set that holds just one permission. -/
def flag? (key : String) : Option PermissionBits := (bit? key).map (BitVec.twoPow 64)

end Permission

/-- What an override says of one permission. -/
inductive Setting
  | allow
  | deny
  | inherit
  deriving DecidableEq

namespace Setting

def text : Setting → String
  | .allow => "allow"
  | .deny => "deny"
  | .inherit => "inherit"

/-- The own setting, or the parent's where the own one leaves it to the parent. -/
def orParent : Setting → Setting → Setting
  | .inherit, parent => parent
  | own, _ => own

end Setting
end GuildPlan
