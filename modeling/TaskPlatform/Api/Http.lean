import TaskPlatform.Api.Request

/-!
# Responses

`app/main.py`: how the outcome of a route becomes a response.  The status codes of the
routes are those of `app/routers`; the list of rejected fields in a 422 is FastAPI's own
and left out.
-/

namespace TaskPlatform

inductive Content where
  | body (b : Body)
  | error (code message : String)
  | rejectedInput
  deriving DecidableEq

structure HttpResponse where
  status : Nat
  headers : List (String × String) := []
  content : Content
  deriving DecidableEq

def appExceptionHandler (exc : AppException) : HttpResponse :=
  { status := exc.statusCode, headers := exc.headers, content := .error exc.code exc.message }

def unexpectedExceptionHandler : HttpResponse :=
  { status := 500, content := .error "INTERNAL_SERVER_ERROR" "Internal server error" }

/-- The `status_code` of the route. -/
def Request.statusCode : Request → Nat
  | createUser _ _ | createWorkspace _ _ | addMember _ _ _ | createTask _ _ _ => 201
  | removeMember _ _ _ | deleteTask _ _ _ => 204
  | _ => 200

def Request.http (request : Request) : Response → HttpResponse
  | .ok body => { status := request.statusCode, content := .body body }
  | .error (.app e) => appExceptionHandler e
  | .error (.sql _) => unexpectedExceptionHandler
  | .error .validation => { status := 422, content := .rejectedInput }

end TaskPlatform
