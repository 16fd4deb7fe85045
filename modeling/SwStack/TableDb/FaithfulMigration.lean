import SwStack.TableDb.ManagedRuns
import SwStack.Types.JsonText

/-! Migrations as their readers see them. The row that a migration is to make is fixed by the plan
and the two schemas; the batch holds its text, and the row is there when the text reads back. -/
open List

namespace SwStack.TableDb

open SwStack.Lib SwStack.Types SwStack.EmbeddedDb

variable {numbers : Numbers} {environment : Environment} {current next : TableSchema}
  {plan : MigrationPlan}

section

variable {db : Database}

end

end SwStack.TableDb
