import Mathlib.Data.List.Infix
import Hermes.Lib.History
import Hermes.Spec.AccessControl

/-!
# Who may do what

The users and the registries after a run, compared with the calls of the run.

* `verifyPassword_hashPassword`: a password is compared through the text of its hash.
* `credentialsOf_snoc`, `definitionOf_snoc`, `granted_snoc`: what one more call says.
* `Follows`: the users and the roles are those of the calls, and every call keeps it so.
* `authenticate_eq`, `checkPermission_iff_permitted`: what the registries answer then.
* `access_follows`: who is authenticated and what is permitted after every run.
-/

namespace Hermes

open History

namespace Access

variable {ids : IdSource String} {kdf : List UInt8 → List UInt8 → List UInt8}

/-! ## Passwords -/

theorem clear_encode (bytes : List UInt8) : Cut.Clear separator (Hex.encode bytes) := by
  intro hin
  have hmem : '$' ∈ Hex.encode bytes ++ separator.dropLast :=
    (List.singleton_infix_iff _ _).1 hin
  rw [show separator.dropLast = [] from rfl, List.append_nil] at hmem
  exact absurd (Hex.isSome_value_of_mem hmem) (by decide)

/-- Two encoded texts are compared as the bytes are. -/
theorem compareDigest_encode (a b : List UInt8) :
    compareDigest (Hex.encode a) (Hex.encode b) = .ok (decide (a = b)) := by
  unfold compareDigest
  rw [if_pos]
  · simp only [Hex.encode_injective.eq_iff]
  · rw [List.all_eq_true]
    intro c hc
    have hdigit : (Hex.value c).isSome := by
      rcases List.mem_append.1 hc with hc | hc
      · exact Hex.isSome_value_of_mem hc
      · exact Hex.isSome_value_of_mem hc
    exact decide_eq_true (Hex.toNat_lt_of_isSome hdigit)

/-- **A password is verified** exactly when its hash under the stored salt is the stored hash. -/
theorem verifyPassword_hashPassword (password other : String) (salt : List UInt8) :
    verifyPassword kdf password (hashPassword kdf other salt) =
      .ok (decide (kdf (utf8 password) salt = kdf (utf8 other) salt)) := by
  have hsep : separator ≠ [] := by decide
  have hcut := (Cut.cut_append_iff hsep (Hex.encode salt)
    (Hex.encode (kdf (utf8 other) salt))).2 (clear_encode salt)
  unfold verifyPassword hashPassword
  rw [String.toList_ofList, hcut]
  simp only [Hex.decode_encode]
  exact compareDigest_encode _ _

/-! ## One more call -/

variable {calls : List AccessCall} {call : AccessCall} {username userId roleName : String}

theorem credentials_register (name password : String) (roles : Option (List String))
    (salt : List UInt8) : credentials username (.register name password roles salt) =
      if name = username then some { password, salt, roles := roles.getD [] } else none := rfl

theorem credentialsOf_snoc : credentialsOf username (calls ++ [call]) =
    (credentialsOf username calls).or (credentials username call) := by
  unfold credentialsOf
  rw [List.findSome?_append, List.findSome?_singleton]

/-- A call that registers nobody. -/
theorem credentialsOf_snoc_of_none (hcred : credentials username call = none) :
    credentialsOf username (calls ++ [call]) = credentialsOf username calls := by
  rw [credentialsOf_snoc, hcred, Option.or_none]

theorem definition_createRole (registry n : ℕ) (name role : String)
    (permissions : Option (List Permission)) :
    definition registry name (.createRole n role permissions) =
      if n = registry ∧ role = name then some (permissions.getD []).toFinset else none := rfl

theorem definitionOf_snoc {registry : ℕ} : definitionOf registry roleName (calls ++ [call]) =
    (definition registry roleName call).or (definitionOf registry roleName calls) := by
  unfold definitionOf
  rw [List.reverse_append, List.findSome?_append, List.reverse_singleton, List.findSome?_singleton]

variable (ids kdf) in
/-- The call assigns the role to the user after the others. -/
def Grants (calls : List AccessCall) (call : AccessCall) (userId roleName : String) : Prop :=
  ∃ registry, call = .assignRole registry userId roleName ∧
    (definitionOf registry roleName calls).isSome ∧
    ((AccessControl.run ids kdf calls).auth.getUser userId).isSome

theorem granted_snoc : Granted ids kdf (calls ++ [call]) userId roleName ↔
    Granted ids kdf calls userId roleName ∨ Grants ids kdf calls call userId roleName := by
  constructor
  · rintro ⟨before, registry, after, heq, hdefined, hthere⟩
    rcases List.eq_nil_or_concat after with rfl | ⟨after, last, rfl⟩
    · obtain ⟨rfl, rfl⟩ := List.append_singleton_inj.1 heq
      exact .inr ⟨registry, rfl, hdefined, hthere⟩
    · rw [List.concat_eq_append, ← List.cons_append, ← List.append_assoc] at heq
      obtain ⟨rfl, rfl⟩ := List.append_singleton_inj.1 heq
      exact .inl ⟨before, registry, after, rfl, hdefined, hthere⟩
  · rintro (⟨before, registry, after, rfl, hrest⟩ | ⟨registry, rfl, hrest⟩)
    · refine ⟨before, registry, after ++ [call], ?_, hrest⟩
      rw [List.append_assoc, List.cons_append]
    · exact ⟨calls, registry, [], rfl, hrest⟩

/-- A call that assigns nothing new. -/
theorem granted_snoc_of_imp (hgrants : Grants ids kdf calls call userId roleName →
    Granted ids kdf calls userId roleName) : Granted ids kdf (calls ++ [call]) userId roleName ↔
      Granted ids kdf calls userId roleName := by
  rw [granted_snoc, or_iff_left_of_imp hgrants]

/-! ## Users -/

variable (ids kdf) in
/-- The user has the password and the roles that the calls say. -/
structure Account (calls : List AccessCall) (g : Credentials) (user : User) : Prop where
  hash : user.hashedPassword = hashPassword kdf g.password g.salt
  roles : ∀ roleName, roleName ∈ user.roles ↔
    roleName ∈ g.roles ∨ Granted ids kdf calls user.id roleName

variable (ids kdf) in
/-- The users are those that the calls registered. -/
structure FollowsUsers (calls : List AccessCall) (auth : AuthRegistry) : Prop where
  nonempty : "" ∉ auth.byId.keys
  own : ∀ user ∈ auth.byId.values, auth.byUsername.get? user.username = some user.id
  unknown : ∀ username, credentialsOf username calls = none → auth.byUsername.get? username = none
  known : ∀ username g, credentialsOf username calls = some g → ∃ user,
    auth.byUsername.get? username = some user.id ∧ auth.getUser user.id = some user ∧
      user.username = username ∧ Account ids kdf calls g user
  granted : ∀ userId roleName, Granted ids kdf calls userId roleName → (auth.getUser userId).isSome

variable {auth : AuthRegistry}

/-- A call that says nothing new of the users. -/
theorem FollowsUsers.same (h : FollowsUsers ids kdf calls auth)
    (hcred : ∀ username, credentialsOf username (calls ++ [call]) = credentialsOf username calls)
    (hgrants : ∀ userId roleName, Grants ids kdf calls call userId roleName →
      Granted ids kdf calls userId roleName) : FollowsUsers ids kdf (calls ++ [call]) auth := by
  have hgranted : ∀ userId roleName, Granted ids kdf (calls ++ [call]) userId roleName ↔
      Granted ids kdf calls userId roleName := by
    intro userId roleName
    exact granted_snoc_of_imp (hgrants userId roleName)
  refine ⟨h.nonempty, h.own, ?_, ?_, ?_⟩
  · intro username hnone
    exact h.unknown username ((hcred username).symm.trans hnone)
  · intro username g hg
    obtain ⟨user, hid, hget, hname, hacc⟩ := h.known username g ((hcred username).symm.trans hg)
    refine ⟨user, hid, hget, hname, hacc.hash, fun roleName => ?_⟩
    rw [hgranted]
    exact hacc.roles roleName
  · intro userId roleName hr
    exact h.granted userId roleName ((hgranted userId roleName).1 hr)

/-- A user is registered under a username that is free. -/
theorem FollowsUsers.add (h : FollowsUsers ids kdf calls auth) {password : String}
    {roles : Option (List String)} {salt : List UInt8} (user : User)
    (hfree : auth.byUsername.get? user.username = none)
    (hid : user.id ∉ "" :: auth.byId.keys)
    (hhash : user.hashedPassword = hashPassword kdf password salt)
    (hroles : user.roles = roles.getD []) :
    FollowsUsers ids kdf (calls ++ [.register user.username password roles salt])
      { byId := auth.byId.put user
        byUsername := auth.byUsername.insert user.username user.id } := by
  rw [List.mem_cons, not_or] at hid
  obtain ⟨hne, hfresh⟩ := hid
  have hnone : credentialsOf user.username calls = none := by
    cases hg : credentialsOf user.username calls with
    | none => rfl
    | some g =>
      obtain ⟨x, hthere, -⟩ := h.known _ _ hg
      rw [hfree] at hthere
      cases hthere
  have hgranted : ∀ userId roleName, Granted ids kdf
      (calls ++ [.register user.username password roles salt]) userId roleName ↔
        Granted ids kdf calls userId roleName := by
    intro userId roleName
    refine granted_snoc_of_imp ?_
    rintro ⟨registry, hcall, -⟩
    cases hcall
  -- the users that were there have other ids
  have hold : ∀ {userId : String} {x : User}, auth.getUser userId = some x →
      (auth.byId.put user).get? userId = some x := by
    intro userId x hx
    rw [Index.get?_put, if_neg]
    · exact hx
    · rintro rfl
      exact hfresh (Index.mem_keys.2 (Option.isSome_of_eq_some hx))
  refine ⟨?_, ?_, ?_, ?_, ?_⟩
  · rw [Index.mem_keys, Index.get?_put, if_neg fun h => hne h.symm, ← Index.mem_keys]
    exact h.nonempty
  · intro x hx
    rcases Index.mem_values_put.1 hx with rfl | ⟨hx, -⟩
    · exact Dict.get?_insert_self _ _ _
    · have hname := h.own x hx
      rw [Dict.get?_insert_of_ne, hname]
      intro heq
      rw [heq, hfree] at hname
      cases hname
  · intro name hname
    rw [credentialsOf_snoc, Option.or_eq_none_iff] at hname
    rw [Dict.get?_insert_of_ne]
    · exact h.unknown name hname.1
    · rintro rfl
      rw [credentials_register, if_pos rfl] at hname
      cases hname.2
  · intro name g hg
    rw [credentialsOf_snoc] at hg
    rcases Option.or_eq_some_iff.1 hg with hg | ⟨-, hnew⟩
    · obtain ⟨x, hxid, hget, hxname, hacc⟩ := h.known name g hg
      refine ⟨x, ?_, hold hget, hxname, hacc.hash, fun roleName => ?_⟩
      · rw [Dict.get?_insert_of_ne, hxid]
        rintro rfl
        rw [hnone] at hg
        cases hg
      · rw [hgranted]
        exact hacc.roles roleName
    · rw [credentials_register] at hnew
      split_ifs at hnew with hname
      obtain rfl := hname
      obtain rfl := Option.some.inj hnew
      refine ⟨user, Dict.get?_insert_self _ _ _, ?_, rfl, hhash, fun roleName => ?_⟩
      · exact (Index.get?_put _ _ _).trans (if_pos rfl)
      · rw [hgranted, hroles, or_iff_left]
        intro hr
        exact hfresh (Index.mem_keys.2 (h.granted _ _ hr))
  · intro userId roleName hr
    obtain ⟨x, hx⟩ := Option.isSome_iff_exists.1 (h.granted _ _ ((hgranted _ _).1 hr))
    exact Option.isSome_of_eq_some (hold hx)

theorem FollowsUsers.register (h : FollowsUsers ids kdf calls auth) (username password : String)
    (roles : Option (List String)) (salt : List UInt8) :
    FollowsUsers ids kdf (calls ++ [.register username password roles salt])
      (auth.register ids kdf username password roles salt).2 := by
  unfold AuthRegistry.register
  split
  · -- what the call says of a username that is taken is not the first that is said of it
    rename_i htaken
    refine h.same (fun name => ?_) ?_
    · rw [credentialsOf_snoc]
      cases hg : credentialsOf name calls with
      | some g => rfl
      | none =>
        refine if_neg ?_
        rintro rfl
        rw [h.unknown _ hg] at htaken
        cases htaken
    · rintro userId roleName ⟨registry, hcall, -⟩
      cases hcall
  · rename_i hfree
    rw [Option.not_isSome_iff_eq_none] at hfree
    exact h.add ⟨_, username, _, _⟩ hfree (ids.not_mem _) rfl rfl

/-- A role is assigned to a user. -/
theorem FollowsUsers.assign (h : FollowsUsers ids kdf calls auth) {user : User}
    (roles : List String) (hget : auth.getUser user.id = some user)
    (hroles : ∀ r, r ∈ roles ↔ r ∈ user.roles ∨ r = roleName)
    (hcred : ∀ username, credentials username call = none)
    (hgrants : ∀ i r, Grants ids kdf calls call i r ↔ i = user.id ∧ r = roleName) :
    FollowsUsers ids kdf (calls ++ [call])
      { auth with byId := auth.byId.put { user with roles := roles } } := by
  have hold : ∀ username, credentialsOf username (calls ++ [call]) = credentialsOf username calls := by
    intro username
    exact credentialsOf_snoc_of_none (hcred username)
  have hthere : ∀ {userId : String}, (auth.getUser userId).isSome →
      ((auth.byId.put { user with roles := roles }).get? userId).isSome := by
    intro userId hthere
    rw [Index.get?_put]
    split
    · rfl
    · exact hthere
  refine ⟨?_, ?_, ?_, ?_, ?_⟩
  · intro hempty
    rw [Index.mem_keys, Index.get?_put] at hempty
    split at hempty
    · rename_i hid
      refine h.nonempty (Index.mem_keys.2 ?_)
      rw [hid]
      exact Option.isSome_of_eq_some hget
    · exact h.nonempty (Index.mem_keys.2 hempty)
  · intro x hx
    rcases Index.mem_values_put.1 hx with rfl | ⟨hx, -⟩
    · exact h.own user (Index.mem_values.2 hget)
    · exact h.own x hx
  · intro username hnone
    exact h.unknown username ((hold username).symm.trans hnone)
  · intro username g hg
    obtain ⟨x, hxid, hxget, hxname, hacc⟩ := h.known username g ((hold username).symm.trans hg)
    by_cases hx : x.id = user.id
    · -- the user whom the role is assigned to
      obtain rfl : x = user := by
        rw [hx, hget] at hxget
        exact (Option.some.inj hxget).symm
      refine ⟨{ x with roles := roles }, hxid, (Index.get?_put _ _ _).trans (if_pos rfl), hxname,
        hacc.hash, fun r => ?_⟩
      rw [granted_snoc, hgrants, hroles, hacc.roles, or_assoc]
      simp only [true_and]
    · refine ⟨x, hxid, (Index.get?_put _ _ _).trans ((if_neg hx).trans hxget), hxname, hacc.hash,
        fun r => ?_⟩
      have hother : ¬ (x.id = user.id ∧ r = roleName) := fun h => hx h.1
      rw [granted_snoc, hgrants, hacc.roles, or_iff_left hother]
  · intro userId r hr
    rcases granted_snoc.1 hr with hr | hr
    · exact hthere (h.granted userId r hr)
    · obtain ⟨rfl, rfl⟩ := (hgrants userId r).1 hr
      exact hthere (Option.isSome_of_eq_some hget)

/-! ## Roles -/

/-- The roles of each registry are those that the calls defined. -/
def FollowsRoles (calls : List AccessCall) (registries : ℕ → RBACRegistry) : Prop :=
  ∀ registry name,
    ((registries registry).getRole name).map Role.permissions = definitionOf registry name calls

theorem followsRoles_same {registries : ℕ → RBACRegistry} (h : FollowsRoles calls registries)
    (hdef : ∀ registry name, definition registry name call = none) :
    FollowsRoles (calls ++ [call]) registries := by
  intro registry name
  rw [definitionOf_snoc, hdef, Option.none_or]
  exact h registry name

theorem followsRoles_createRole {registries : ℕ → RBACRegistry} (h : FollowsRoles calls registries)
    (n : ℕ) (role : String) (permissions : Option (List Permission)) :
    FollowsRoles (calls ++ [.createRole n role permissions])
      (Function.update registries n ((registries n).createRole role permissions).2) := by
  intro registry name
  rw [definitionOf_snoc, definition_createRole]
  by_cases hn : n = registry
  · subst hn
    rw [Function.update_self]
    have hget := Index.get?_put (registries n).roles
      { name := role, permissions := (permissions.getD []).toFinset } name
    unfold RBACRegistry.getRole RBACRegistry.createRole
    dsimp only at hget ⊢
    rw [hget]
    by_cases hname : role = name
    · rw [if_pos hname.symm, if_pos ⟨rfl, hname⟩]
      rfl
    · rw [if_neg fun heq => hname heq.symm, if_neg fun heq => hname heq.2]
      exact h n name
  · rw [Function.update_of_ne fun heq => hn heq.symm, if_neg fun heq => hn heq.1]
    exact h registry name

/-! ## Runs -/

variable (ids kdf) in
theorem run_snoc (calls : List AccessCall) (call : AccessCall) :
    AccessControl.run ids kdf (calls ++ [call]) =
      AccessControl.step ids kdf (AccessControl.run ids kdf calls) call := by
  unfold AccessControl.run
  rw [List.foldl_append, List.foldl_cons, List.foldl_nil]

variable (ids kdf) in
/-- The state after the calls is the one that they say. -/
structure Follows (calls : List AccessCall) : Prop where
  users : FollowsUsers ids kdf calls (AccessControl.run ids kdf calls).auth
  roles : FollowsRoles calls (AccessControl.run ids kdf calls).registries

theorem Follows.assignRole (h : Follows ids kdf calls) (registry : ℕ) (userId roleName : String) :
    FollowsUsers ids kdf (calls ++ [.assignRole registry userId roleName])
      (((AccessControl.run ids kdf calls).registries registry).assignRole
        (AccessControl.run ids kdf calls).auth userId roleName).2 := by
  have hcred : ∀ username, credentials username (.assignRole registry userId roleName) = none :=
    fun _ => rfl
  have hold : ∀ username, credentialsOf username (calls ++ [.assignRole registry userId roleName]) =
      credentialsOf username calls := by
    intro username
    exact credentialsOf_snoc_of_none (hcred username)
  have hdefined := h.roles registry roleName
  unfold RBACRegistry.getRole at hdefined
  unfold RBACRegistry.assignRole
  split
  · -- a role that the registry does not know
    rename_i hnone
    refine h.users.same hold ?_
    rintro i r ⟨n, hcall, hsome, -⟩
    cases hcall
    rw [← hdefined, Option.isNone_iff_eq_none.1 hnone] at hsome
    cases hsome
  · rename_i hrole
    split
    · -- a user that is not there
      rename_i hnone
      refine h.users.same hold ?_
      rintro i r ⟨n, hcall, -, hthere⟩
      cases hcall
      rw [hnone] at hthere
      cases hthere
    · rename_i user hget
      obtain rfl : user.id = userId := Index.key_of_get? hget
      have hgrants : ∀ i r, Grants ids kdf calls (.assignRole registry user.id roleName) i r ↔
          i = user.id ∧ r = roleName := by
        intro i r
        constructor
        · rintro ⟨n, hcall, -, -⟩
          cases hcall
          exact ⟨rfl, rfl⟩
        · rintro ⟨rfl, rfl⟩
          refine ⟨registry, rfl, ?_, Option.isSome_of_eq_some hget⟩
          rw [← hdefined, Option.isSome_map, Option.isSome_iff_ne_none]
          exact fun hnone => hrole (Option.isNone_iff_eq_none.2 hnone)
      split
      · rename_i hheld
        have hput : (AccessControl.run ids kdf calls).auth.byId.put user =
            (AccessControl.run ids kdf calls).auth.byId := Index.put_self hget
        have hroles : ∀ r, r ∈ user.roles ↔ r ∈ user.roles ∨ r = roleName := by
          intro r
          rw [iff_self_or]
          rintro rfl
          exact hheld
        have hsame := h.users.assign user.roles hget hroles hcred hgrants
        rw [hput] at hsame
        exact hsame
      · refine h.users.assign _ hget (fun r => ?_) hcred hgrants
        rw [List.mem_append, List.mem_singleton]

/-- **The state of every run is the one that its calls say.** -/
theorem follows_run (calls : List AccessCall) : Follows ids kdf calls := by
  induction calls using List.reverseRecOn with
  | nil =>
    refine ⟨⟨List.not_mem_nil, List.forall_mem_nil _, fun _ _ => rfl, ?_, ?_⟩, fun _ _ => rfl⟩
    · intro username g hg
      cases hg
    · rintro userId roleName ⟨before, registry, after, heq, -⟩
      exact absurd heq.symm (by simp)
  | append_singleton calls call ih =>
    cases call with
    | register username password roles salt =>
      constructor
      · rw [run_snoc]
        exact ih.users.register username password roles salt
      · rw [run_snoc]
        exact followsRoles_same ih.roles fun _ _ => rfl
    | createRole n role permissions =>
      constructor
      · rw [run_snoc]
        refine ih.users.same (fun username => credentialsOf_snoc_of_none rfl) ?_
        rintro userId roleName ⟨registry, hcall, -⟩
        cases hcall
      · rw [run_snoc]
        exact followsRoles_createRole ih.roles n role permissions
    | assignRole registry userId roleName =>
      constructor
      · rw [run_snoc]
        exact ih.assignRole registry userId roleName
      · rw [run_snoc]
        exact followsRoles_same ih.roles fun _ _ => rfl

/-! ## What is answered -/

theorem getByUsername_eq_some_iff (h : FollowsUsers ids kdf calls auth) {user : User} :
    auth.getByUsername username = some user ↔
      auth.byUsername.get? username = some user.id ∧ auth.getUser user.id = some user := by
  unfold AuthRegistry.getByUsername
  constructor
  · intro hget
    obtain ⟨userId, hid, hget⟩ := Option.bind_eq_some_iff.1 hget
    obtain rfl : user.id = userId := Index.key_of_get? hget
    refine ⟨?_, hget⟩
    cases hname : auth.byUsername.get? username with
    | none =>
      rw [hname] at hid
      cases hid
    | some other =>
      rw [hname] at hid
      unfold truthy at hid
      simp only at hid
      split at hid
      · cases hid
      · exact hid
  · rintro ⟨hname, hget⟩
    have hne : user.id ≠ "" := by
      intro hempty
      refine h.nonempty (Index.mem_keys.2 ?_)
      rw [← hempty]
      exact Option.isSome_of_eq_some hget
    rw [hname, show truthy (some user.id) = some user.id from if_neg hne]
    exact hget

/-- What a user was registered with. -/
theorem account_of_getUser (h : FollowsUsers ids kdf calls auth) {user : User}
    (hget : auth.getUser userId = some user) :
    auth.getByUsername user.username = some user ∧
      ∃ g, credentialsOf user.username calls = some g ∧ Account ids kdf calls g user := by
  obtain rfl : user.id = userId := Index.key_of_get? hget
  have hown := h.own user (Index.mem_values.2 hget)
  refine ⟨(getByUsername_eq_some_iff h).2 ⟨hown, hget⟩, ?_⟩
  cases hg : credentialsOf user.username calls with
  | none =>
    rw [h.unknown _ hg] at hown
    cases hown
  | some g =>
    obtain ⟨x, hxid, hxget, -, hacc⟩ := h.known _ g hg
    rw [hown] at hxid
    rw [← Option.some.inj hxid, hget] at hxget
    obtain rfl := Option.some.inj hxget
    exact ⟨g, rfl, hacc⟩

/-- The permissions of a list of roles. -/
theorem mem_foldl_unite {r : RBACRegistry} {p : Permission} (roles : List String) :
    ∀ out : Finset Permission, p ∈ roles.foldl r.unite out ↔
      p ∈ out ∨ ∃ roleName ∈ roles, ∃ role, r.getRole roleName = some role ∧
        p ∈ role.permissions := by
  induction roles with
  | nil => simp
  | cons name roles ih =>
    intro out
    rw [List.foldl_cons, ih]
    unfold RBACRegistry.unite
    cases hrole : r.getRole name with
    | none => simp [hrole]
    | some role => simp [hrole, or_assoc]

theorem checkPermission_iff {r : RBACRegistry} {p : Permission} :
    r.checkPermission auth userId p = true ↔ ∃ user, auth.getUser userId = some user ∧
      ∃ roleName ∈ user.roles, ∃ role, r.getRole roleName = some role ∧ p ∈ role.permissions := by
  unfold RBACRegistry.checkPermission
  cases auth.getUser userId with
  | none => simp
  | some user => simp [List.any_eq_true, Option.any_eq_true_iff_get, Option.eq_some_iff_get_eq]

theorem mem_permissionsOf {r : RBACRegistry} {p : Permission} :
    p ∈ r.permissionsOf auth userId ↔ r.checkPermission auth userId p = true := by
  rw [checkPermission_iff]
  unfold RBACRegistry.permissionsOf
  cases auth.getUser userId with
  | none => simp
  | some user => simp [mem_foldl_unite]

/-- The roles of a user. -/
theorem mem_roles_iff (h : FollowsUsers ids kdf calls auth) {user : User}
    (hget : auth.getUser userId = some user) :
    roleName ∈ user.roles ↔ Holds ids kdf calls user.username userId roleName := by
  obtain ⟨-, g, hg, hacc⟩ := account_of_getUser h hget
  obtain rfl : user.id = userId := Index.key_of_get? hget
  rw [hacc.roles]
  constructor
  · intro hr
    exact ⟨g, hg, hr⟩
  · rintro ⟨g', hg', hr⟩
    rw [hg] at hg'
    obtain rfl := Option.some.inj hg'
    exact hr

theorem authenticate_eq (h : FollowsUsers ids kdf calls auth) {g : Credentials}
    (hg : credentialsOf username calls = some g) : ∃ user,
      auth.getByUsername username = some user ∧ user.username = username ∧
        ∀ password, auth.authenticate kdf username password =
          .ok (if kdf (utf8 password) g.salt = kdf (utf8 g.password) g.salt then some user
            else none) := by
  obtain ⟨user, hid, hget, hname, hacc⟩ := h.known username g hg
  refine ⟨user, (getByUsername_eq_some_iff h).2 ⟨hid, hget⟩, hname, fun password => ?_⟩
  unfold AuthRegistry.authenticate
  unfold AuthRegistry.getUser at hget
  rw [hid]
  simp only [hget, hacc.hash, verifyPassword_hashPassword]
  simp [Except.map]

theorem authenticate_eq_none (h : FollowsUsers ids kdf calls auth)
    (hnone : credentialsOf username calls = none) :
    auth.getByUsername username = none ∧
      ∀ password, auth.authenticate kdf username password = .ok none := by
  have hfree := h.unknown username hnone
  constructor
  · unfold AuthRegistry.getByUsername
    rw [hfree]
    rfl
  · intro password
    unfold AuthRegistry.authenticate
    rw [hfree]

/-- Ids and usernames are one to one. -/
theorem getUser_eq_some_iff (h : FollowsUsers ids kdf calls auth) {user : User} :
    auth.getUser userId = some user ↔
      user.id = userId ∧ auth.getByUsername user.username = some user := by
  constructor
  · intro hget
    exact ⟨Index.key_of_get? hget, (account_of_getUser h hget).1⟩
  · rintro ⟨rfl, hget⟩
    exact ((getByUsername_eq_some_iff h).1 hget).2

theorem hasRole_iff (h : FollowsUsers ids kdf calls auth) :
    auth.hasRole userId roleName = true ↔ ∃ user,
      auth.getUser userId = some user ∧ Holds ids kdf calls user.username userId roleName := by
  unfold AuthRegistry.hasRole
  cases hget : auth.getUser userId with
  | none => simp
  | some user => simp [mem_roles_iff h hget]

theorem requirePermission_iff {r : RBACRegistry} {p : Permission} :
    r.requirePermission auth userId p = .ok () ↔ r.checkPermission auth userId p = true := by
  unfold RBACRegistry.requirePermission
  split
  · rename_i hheld
    exact iff_of_true rfl hheld
  · rename_i hlacks
    exact iff_of_false (by simp) hlacks

/-- **What is permitted** is what the last definitions of the user's roles say. -/
theorem checkPermission_iff_permitted (h : FollowsUsers ids kdf calls auth)
    {registries : ℕ → RBACRegistry} (hroles : FollowsRoles calls registries) (registry : ℕ)
    {p : Permission} : (registries registry).checkPermission auth userId p = true ↔ ∃ user,
      auth.getUser userId = some user ∧ Permitted ids kdf calls registry user.username userId p := by
  rw [checkPermission_iff]
  refine exists_congr fun user => and_congr_right fun hget => ?_
  constructor
  · rintro ⟨roleName, hr, role, hrole, hp⟩
    have hdef : definitionOf registry roleName calls = some role.permissions := by
      rw [← hroles, hrole]
      rfl
    exact ⟨roleName, role.permissions, (mem_roles_iff h hget).1 hr, hdef, hp⟩
  · rintro ⟨roleName, permissions, hr, hdef, hp⟩
    rw [← hroles] at hdef
    obtain ⟨role, hrole, rfl⟩ := Option.map_eq_some_iff.1 hdef
    exact ⟨roleName, (mem_roles_iff h hget).2 hr, role, hrole, hp⟩

end Access

namespace AccessControl

open Access

/-- **Who may do what.** After every run of calls on the users and on any number of registries, a
username is authenticated exactly with a password whose hash is the one of its first registration,
and a user holds a permission in a registry exactly if one of its roles, from its registration or
assigned through whichever registry, has it in the last definition that this registry was given. -/
theorem access_follows (ids : IdSource String) (kdf : List UInt8 → List UInt8 → List UInt8)
    (calls : List AccessCall) :
    let s := run ids kdf calls
    (∀ username, credentialsOf username calls = none → s.auth.getByUsername username = none ∧
      ∀ password, s.auth.authenticate kdf username password = .ok none) ∧
    (∀ username g, credentialsOf username calls = some g → ∃ user,
      s.auth.getByUsername username = some user ∧ user.username = username ∧
        ∀ password, s.auth.authenticate kdf username password =
          .ok (if kdf (utf8 password) g.salt = kdf (utf8 g.password) g.salt then some user
            else none)) ∧
    (∀ userId user, s.auth.getUser userId = some user ↔
      user.id = userId ∧ s.auth.getByUsername user.username = some user) ∧
    (∀ userId roleName, s.auth.hasRole userId roleName = true ↔ ∃ user,
      s.auth.getUser userId = some user ∧ Holds ids kdf calls user.username userId roleName) ∧
    ∀ registry userId p,
      ((s.registries registry).requirePermission s.auth userId p = .ok () ↔ ∃ user,
        s.auth.getUser userId = some user ∧
          Permitted ids kdf calls registry user.username userId p) ∧
      (p ∈ (s.registries registry).permissionsOf s.auth userId ↔
        (s.registries registry).requirePermission s.auth userId p = .ok ()) := by
  intro s
  have hfollows : Follows ids kdf calls := follows_run calls
  obtain ⟨husers, hroles⟩ := hfollows
  refine ⟨fun username hnone => authenticate_eq_none husers hnone,
    fun username g hg => authenticate_eq husers hg, fun userId user => getUser_eq_some_iff husers,
    fun userId roleName => hasRole_iff husers, fun registry userId p => ⟨?_, ?_⟩⟩
  · rw [requirePermission_iff]
    exact checkPermission_iff_permitted husers hroles registry
  · rw [requirePermission_iff]
    exact mem_permissionsOf

end AccessControl

end Hermes
