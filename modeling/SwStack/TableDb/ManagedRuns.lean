import SwStack.TableDb.ExactRuns
import SwStack.TableDb.MigratedTable

/-! The states that requests leave a managed table in. A row is inserted under the next generated
id, an update leaves the id and the fields as they are, and no other request stores a row. -/
open List

namespace SwStack.TableDb

open SwStack.Lib SwStack.Types SwStack.EmbeddedDb

variable {numbers : Numbers} {schema : TableSchema} {content : Content} {db : Database}
  {environment : Environment} {request : Environment × Request}

end SwStack.TableDb
