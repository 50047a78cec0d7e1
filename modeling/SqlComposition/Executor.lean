import SqlComposition.Term

/-!
Executors, which answer each statement with the next reply of a script. The last reply is given again and
again; an executor without a script answers with no rows.
-/

namespace SqlComposition

/-- What an executor does when it is given a statement. Rows are worked out when they are asked for. -/
inductive Reply where
  | rows (t : Term)
  | raised (message : String)

namespace Reply

def noRows : Reply := rows (.list [])

/-- The next reply of a script, and the script that is left. -/
def next : List Reply → Reply × List Reply
  | [] => (noRows, [])
  | [last] => (last, [last])
  | reply :: rest => (reply, rest)

end Reply

/-- An executor with the replies it has left. One that answers later is waited for; what it gives back is
then taken as it is. -/
structure Executor where
  answersLater : Bool := false
  script : List Reply := []

/-- The reply to a statement, and the executor after it. -/
def Executor.reply (e : Executor) : Reply × Executor :=
  ((Reply.next e.script).1, { e with script := (Reply.next e.script).2 })

end SqlComposition
