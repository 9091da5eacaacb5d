import SaasBackend.Backend

/-! src/modules/audit: what the controllers log. -/

set_option autoImplicit false

namespace SaasBackend
open Keyed Handler

/-- `log`: not waited for, and its failure is only logged. `id` is the cuid drawn. -/
def auditLog (id : Id) (row : AuditLog) : Act Unit :=
  tryCatch (Act.execute (.auditCreate id row)) (fun _ => return ())

/-- The row `auditLog` leaves, when its id is new and its user is there. -/
theorem auditLog_run {b : Backend} {id : Id} {row : AuditLog}
    (hid : b.auditLogs.get? id = none) (huser : row.userId.all b.world.hasUser = true) :
    (auditLog id row).run BackendStmt.exec b = (.ok (), { b with
      auditLogs := b.auditLogs.insert id { row with createdAt := b.world.now } }) := by
  simp only [auditLog, Prog.tryCatch_eq, Prog.run_tryCatch, Act.execute, Prog.run_send,
    BackendStmt.exec, insertNamed, hid, huser]
  rfl

end SaasBackend
