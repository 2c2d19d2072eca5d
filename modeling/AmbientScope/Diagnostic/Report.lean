import AmbientScope.Diagnostic.Basic

/-!
# Reports

The diagnostics of one run in the order in which they were reported. Sorting is stable: diagnostics of one
file, start and code keep their order.
-/

set_option autoImplicit false

namespace AmbientScope

abbrev Report := List Diagnostic

namespace Report

def hasErrors (r : Report) : Bool := r.any Diagnostic.isError

def errorCount (r : Report) : Nat := r.countP Diagnostic.isError

def countOf (r : Report) (code : Nat) : Nat := r.countP (·.code == code)

def sort (r : Report) : Report := r.mergeSort Diagnostic.le

theorem sort_perm (r : Report) : r.sort.Perm r := List.mergeSort_perm _ _

theorem hasErrors_iff (r : Report) : r.hasErrors = true ↔ 0 < r.errorCount := by
  simp [hasErrors, errorCount, List.countP_pos_iff]

end Report

end AmbientScope
