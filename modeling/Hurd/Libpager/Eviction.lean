import Hurd.Libpager.Errors

/-!
# Evictions and their notifications

A page is evicted when it has been returned and nobody has it or waits for it.  The filesystem is
told of it in two places.  After a write, `WAITLIST` alone is looked at, although the clients that
were on it may just have been given the page.  After a clean return, `notify_on_evict` is not looked
at, and neither has the flag of a page that is not evicted been cleared.  A page of a dirty return
that is not found on `WRITEWAIT` is neither written nor evicted.
-/

namespace Hurd.Libpager

namespace Page

/-- Nobody has the page, and nobody waits for it. -/
def Unused (page : Page) : Prop :=
  page.entry.accesslist.isEmpty = true ∧ page.entry.waitlist = []

section Returns

variable {page next : Page} {client : MachPort} {data : ℕ} {dirty kernelCopy : Bool}
  {flags : ReturnFlags} {results : PageCallbacks}

end Returns

end Page

namespace Pager

end Pager

end Hurd.Libpager
