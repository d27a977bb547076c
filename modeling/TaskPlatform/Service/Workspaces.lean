import TaskPlatform.Service.Dependencies

/-!
# Workspaces

`app/services/workspace_service.py`.
-/

namespace TaskPlatform

open Service

def workspaceData (workspace : Workspace) (currentRole : MemberRole) : WorkspaceResponse :=
  { id := workspace.id, name := workspace.name, createdById := workspace.createdById,
    createdAt := workspace.createdAt, updatedAt := workspace.updatedAt,
    currentRole := currentRole }

def createWorkspace (currentUser : User) (name : String) : Service WorkspaceResponse :=
  rollbackOnSqlError do
    let workspace ← call (.insertWorkspace name currentUser.id)
    let _ ← call (.insertMember workspace.id currentUser.id .owner)
    let refreshed ← call (.refreshWorkspace workspace.id)
    call .commit
    return workspaceData refreshed .owner

def listWorkspaces (currentUser : User) (page : PageQuery) :
    Service (Page WorkspaceResponse) := do
  let total ← call (.select (.countMemberships currentUser.id))
  let rows ← call (.select (.workspaces currentUser.id page.limit page.offset))
  return { items := rows.map fun row => workspaceData row.1 row.2, total := total,
           limit := page.limit, offset := page.offset }

def getWorkspaceData (access : WorkspaceAccess) : Service WorkspaceResponse := do
  let role ← access.membershipRole
  return workspaceData access.workspace role

end TaskPlatform
