import Mathlib.Data.BitVec

/-!
# Roles and permissions

Mirror of `parties/permissions.h` and `common/src/permissions.cpp`. A role is a
byte: the source casts received and stored numbers to its enumeration unchecked.
-/

namespace Parties

abbrev Role := BitVec 8

namespace Role

def OWNER : Role := 0
def ADMIN : Role := 1
def MODERATOR : Role := 2
def USER : Role := 3

end Role

abbrev Permissions := BitVec 32

namespace Permissions

def JOIN_CHANNEL : Permissions := 1
def KICK_FROM_CHANNEL : Permissions := 1 <<< 4
def KICK_FROM_SERVER : Permissions := 1 <<< 5
def CREATE_CHANNEL : Permissions := 1 <<< 6
def DELETE_CHANNEL : Permissions := 1 <<< 7
def MANAGE_ROLES : Permissions := 1 <<< 9

end Permissions

def DEFAULT_OWNER_PERMS : Permissions := 0xFFFFFFFF
def DEFAULT_ADMIN_PERMS : Permissions := 0x000007FF
def DEFAULT_MODERATOR_PERMS : Permissions := 0x0000001F
def DEFAULT_USER_PERMS : Permissions := 0x00000003

def defaultPermissions (role : Role) : Permissions :=
  if role = Role.OWNER then DEFAULT_OWNER_PERMS
  else if role = Role.ADMIN then DEFAULT_ADMIN_PERMS
  else if role = Role.MODERATOR then DEFAULT_MODERATOR_PERMS
  else if role = Role.USER then DEFAULT_USER_PERMS
  else 0

def hasPermission (role : Role) (perm : Permissions) (channelOverride : Option Permissions) : Bool :=
  role = Role.OWNER || (channelOverride.getD (defaultPermissions role) &&& perm) ≠ 0

/-- Only users of strictly lower rank can be moderated. -/
def canModerate (actor target : Role) : Bool := actor < target

end Parties
