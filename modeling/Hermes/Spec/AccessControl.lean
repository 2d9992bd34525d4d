import Hermes.Lib.Cut
import Hermes.Lib.Fresh
import Hermes.Lib.Hex
import Hermes.Lib.Index
import Hermes.Spec.Base

/-!
# Users and their permissions (`kernel/auth.py`, `kernel/rbac.py`)

An `AuthRegistry` and any number of `RBACRegistry`s that are bound to it. Roles are assigned in the
users, so that the registries share them, and each registry has permissions of its own for a role.
`pbkdf2_hmac` with its algorithm and its iterations is a parameter, and the salt of a user is given
with the call that registers it. Left out: what others do to the users that the calls return.
-/

namespace Hermes

/-- The fields of a `User` that these files read. -/
structure User where
  id : String
  username : String
  hashedPassword : String := ""
  roles : List String := []

namespace Access

/-! ## Passwords -/

/-- `password.encode("utf-8")`. -/
def utf8 (s : String) : List UInt8 := s.toUTF8.data.toList

/-- What stands between the salt and the hash. -/
def separator : List Char := "$".toList

/-- `hmac.compare_digest` of two texts. -/
def compareDigest (a b : List Char) : Except Exc Bool :=
  if (a ++ b).all fun c => c.toNat < 128 then .ok (a = b)
  else .error ⟨.other, "comparing strings with non-ASCII characters is not supported"⟩

variable (kdf : List UInt8 → List UInt8 → List UInt8)

def hashPassword (password : String) (salt : List UInt8) : String :=
  String.ofList (Hex.encode salt ++ separator ++ Hex.encode (kdf (utf8 password) salt))

def verifyPassword (password stored : String) : Except Exc Bool :=
  match Cut.cut separator stored.toList with
  | none => .ok false
  | some (saltHex, hashHex) =>
    match Hex.decode saltHex with
    | none => .ok false
    | some salt => compareDigest (Hex.encode (kdf (utf8 password) salt)) hashHex

end Access

/-! ## Users -/

structure AuthRegistry where
  byId : Index User.id := ∅
  byUsername : Dict String String := ∅

namespace AuthRegistry

variable (ids : IdSource String) (kdf : List UInt8 → List UInt8 → List UInt8)

/-- `register`. An id is not empty. -/
def register (username password : String) (roles : Option (List String)) (salt : List UInt8)
    (auth : AuthRegistry) : Except Exc User × AuthRegistry :=
  if (auth.byUsername.get? username).isSome then
    (.error ⟨.valueError, "username " ++ pyRepr username ++ " already registered"⟩, auth)
  else
    let user : User :=
      { id := ids.next ("" :: auth.byId.keys)
        username
        hashedPassword := Access.hashPassword kdf password salt
        roles := roles.getD [] }
    (.ok user,
      { byId := auth.byId.put user, byUsername := auth.byUsername.insert username user.id })

def authenticate (username password : String) (auth : AuthRegistry) : Except Exc (Option User) :=
  match auth.byUsername.get? username with
  | none => .ok none
  | some userId =>
    match auth.byId.get? userId with
    | none => .error ⟨.keyError, pyRepr userId⟩
    | some user => (Access.verifyPassword kdf password user.hashedPassword).map fun matched =>
        if matched then some user else none

def getUser (auth : AuthRegistry) (userId : String) : Option User := auth.byId.get? userId

def getByUsername (auth : AuthRegistry) (username : String) : Option User :=
  (truthy (auth.byUsername.get? username)).bind auth.byId.get?

def hasRole (auth : AuthRegistry) (userId role : String) : Bool :=
  (auth.getUser userId).any fun user => role ∈ user.roles

def list (auth : AuthRegistry) : List User := auth.byId.values

end AuthRegistry

/-! ## Roles -/

namespace Access

structure Permission where
  resource : String
  action : String
  deriving DecidableEq, Repr

/-- `str(permission)`. -/
def Permission.text (p : Permission) : String := p.resource ++ ":" ++ p.action

structure Role where
  name : String
  permissions : Finset Permission := ∅

end Access

open Access in
/-- What an `RBACRegistry` has besides the users. -/
structure RBACRegistry where
  roles : Index Role.name := ∅

namespace RBACRegistry

open Access

variable (r : RBACRegistry) (auth : AuthRegistry)

/-- `create_role`: a role of this name is overwritten. -/
def createRole (name : String) (permissions : Option (List Permission)) : Role × RBACRegistry :=
  let role : Role := { name, permissions := (permissions.getD []).toFinset }
  (role, { r with roles := r.roles.put role })

/-- `assign_role`: the role is put into the user. -/
def assignRole (userId roleName : String) : Except Exc Unit × AuthRegistry :=
  if (r.roles.get? roleName).isNone then
    (.error ⟨.valueError, "role " ++ pyRepr roleName ++ " does not exist"⟩, auth)
  else match auth.getUser userId with
    | none => (.error ⟨.valueError, "user " ++ pyRepr userId ++ " not found"⟩, auth)
    | some user =>
      if roleName ∈ user.roles then (.ok (), auth)
      else
        (.ok (), { auth with byId := auth.byId.put { user with roles := user.roles ++ [roleName] } })

def listRoles : List Role := r.roles.values

def getRole (name : String) : Option Role := r.roles.get? name

def checkPermission (userId : String) (permission : Permission) : Bool :=
  match auth.getUser userId with
  | none => false
  | some user => user.roles.any fun roleName =>
      (r.getRole roleName).any fun role => permission ∈ role.permissions

/-- `require_permission`, which raises a `PermissionError`. -/
def requirePermission (userId : String) (permission : Permission) : Except Exc Unit :=
  if r.checkPermission auth userId permission then .ok ()
  else .error ⟨.other, "user " ++ pyRepr userId ++ " lacks permission " ++ permission.text⟩

/-- The permissions of one more role. -/
def unite (out : Finset Permission) (roleName : String) : Finset Permission :=
  match r.getRole roleName with
  | none => out
  | some role => out ∪ role.permissions

/-- `permissions_of`: the union over all roles of the user. -/
def permissionsOf (userId : String) : Finset Permission :=
  match auth.getUser userId with
  | none => ∅
  | some user => user.roles.foldl r.unite ∅

end RBACRegistry

/-! ## Calls -/

/-- A call that changes something, on the users or on one of the registries. -/
inductive AccessCall where
  | register (username password : String) (roles : Option (List String)) (salt : List UInt8)
  | createRole (registry : ℕ) (name : String) (permissions : Option (List Access.Permission))
  | assignRole (registry : ℕ) (userId roleName : String)

structure AccessControl where
  auth : AuthRegistry := {}
  registries : ℕ → RBACRegistry := fun _ => {}

namespace AccessControl

variable (ids : IdSource String) (kdf : List UInt8 → List UInt8 → List UInt8)

def step (s : AccessControl) : AccessCall → AccessControl
  | .register username password roles salt =>
    { s with auth := (s.auth.register ids kdf username password roles salt).2 }
  | .createRole n name permissions =>
    { s with
      registries := Function.update s.registries n ((s.registries n).createRole name permissions).2 }
  | .assignRole n userId roleName =>
    { s with auth := ((s.registries n).assignRole s.auth userId roleName).2 }

def run (calls : List AccessCall) : AccessControl := calls.foldl (step ids kdf) {}

end AccessControl

/-! ## What the calls say -/

namespace Access

/-- What a user was registered with. -/
structure Credentials where
  password : String
  salt : List UInt8
  roles : List String

/-- What a call says of a username. -/
def credentials (username : String) : AccessCall → Option Credentials
  | .register name password roles salt =>
    if name = username then some { password, salt, roles := roles.getD [] } else none
  | _ => none

/-- What a call says of a role. -/
def definition (registry : ℕ) (name : String) : AccessCall → Option (Finset Permission)
  | .createRole n role permissions =>
    if n = registry ∧ role = name then some (permissions.getD []).toFinset else none
  | _ => none

/-- The first call that registers a username says what it was registered with. -/
def credentialsOf (username : String) (calls : List AccessCall) : Option Credentials :=
  calls.findSome? (credentials username)

/-- The last call that defines a role says what its permissions are. -/
def definitionOf (registry : ℕ) (name : String) (calls : List AccessCall) :
    Option (Finset Permission) := calls.reverse.findSome? (definition registry name)

variable (ids : IdSource String) (kdf : List UInt8 → List UInt8 → List UInt8)

/-- The role was assigned to the user, through a registry that had defined it. -/
def Granted (calls : List AccessCall) (userId roleName : String) : Prop :=
  ∃ before registry after, calls = before ++ .assignRole registry userId roleName :: after ∧
    (definitionOf registry roleName before).isSome ∧
    ((AccessControl.run ids kdf before).auth.getUser userId).isSome

/-- The role is one that the user was registered with, or it was assigned. -/
def Holds (calls : List AccessCall) (username userId roleName : String) : Prop :=
  ∃ g, credentialsOf username calls = some g ∧
    (roleName ∈ g.roles ∨ Granted ids kdf calls userId roleName)

/-- One of the roles has the permission, as the registry has defined it last. -/
def Permitted (calls : List AccessCall) (registry : ℕ) (username userId : String)
    (permission : Permission) : Prop :=
  ∃ roleName permissions, Holds ids kdf calls username userId roleName ∧
    definitionOf registry roleName calls = some permissions ∧ permission ∈ permissions

end Access

end Hermes
