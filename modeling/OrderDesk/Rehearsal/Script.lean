import OrderDesk.Rest.Http
import OrderDesk.Table

/-!
# Scripts

A script stands for the exchange: for every verb and path it has a queue of answers.  Each request
takes the front of its queue, and the last answer of a queue is given again and again.  An answer
of status 0 stands for a network that failed.
-/

namespace OrderDesk

/-- Answers by verb and path. -/
structure Script where
  routes : Table String (List HttpResponse)

namespace Script

def empty : Script := ⟨.empty⟩

instance : Inhabited Script := ⟨empty⟩

/-- The name of the queue for a request. -/
def route (r : HttpRequest) : String := r.method ++ " " ++ r.path

/-- What a scripted answer means. -/
def outcome (a : HttpResponse) : Outcome HttpResponse :=
  if a.status = 0 then .error (.network a.body) else .ok a

/-- The answer to a request. -/
def answer (s : Script) (r : HttpRequest) : Outcome HttpResponse × Script :=
  match s.routes.get? (route r) with
  | none => (.error (.network ("no scripted response for " ++ route r)), s)
  | some [] => (.error (.network "empty response queue"), s)
  | some [a] => (outcome a, s)
  | some (a :: rest) => (outcome a, ⟨s.routes.put (route r) rest⟩)

/-- Further answers for a route. -/
def respond (s : Script) (route : String) (answers : List HttpResponse) : Script :=
  ⟨s.routes.put route ((s.routes.get? route).getD [] ++ answers)⟩

def replace (s : Script) (route : String) (answers : List HttpResponse) : Script :=
  ⟨s.routes.put route answers⟩

end Script
end OrderDesk
