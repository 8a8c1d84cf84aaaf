namespace PluginDescriptor

/-- What an annotation on a declaration stands for. -/
inductive Marker where
  | plugin | description | loadOrder | author | website | logPrefix | library | dependency
  | softDependency | loadBefore | command | commands | permission | permissions
  | childPermission | apiVersion
  deriving DecidableEq, Repr

namespace Marker

def all : List Marker :=
  [plugin, description, loadOrder, author, website, logPrefix, library, dependency,
    softDependency, loadBefore, command, commands, permission, permissions, childPermission,
    apiVersion]

/-- The name of a marker in snapshots and messages. -/
def name : Marker → String
  | plugin => "Plugin"
  | description => "Description"
  | loadOrder => "LoadOrder"
  | author => "Author"
  | website => "Website"
  | logPrefix => "LogPrefix"
  | library => "Library"
  | dependency => "Dependency"
  | softDependency => "SoftDependency"
  | loadBefore => "LoadBefore"
  | command => "Command"
  | commands => "Commands"
  | permission => "Permission"
  | permissions => "Permissions"
  | childPermission => "ChildPermission"
  | apiVersion => "ApiVersion"

/-- The marker whose annotations hold several annotations of this one in their `value`. -/
def container? : Marker → Option Marker
  | command => some commands
  | permission => some permissions
  | _ => none

theorem mem_all (m : Marker) : m ∈ all := by cases m <;> decide

theorem name_injective {m n : Marker} (h : m.name = n.name) : m = n := by
  revert h
  cases m <;> cases n <;> decide

/-- No container is held by a further container. -/
theorem container?_container? {m n : Marker} (h : m.container? = some n) :
    n.container? = none := by
  cases m <;> simp [container?] at h <;> subst h <;> rfl

end Marker
end PluginDescriptor
