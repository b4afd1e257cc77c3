import Reconciler.Report
import Reconciler.Spread
import Reconciler.Store.Basic

set_option autoImplicit false

namespace Reconciler

structure World (σ : Type) extends Store σ where
  now : σ → Timestamp
  draw : σ → Fin Spread.windowMinutes × σ
  cancelled : σ → Bool
  correlate : σ → String × σ
  capture : Error → Tags → σ → List Log.Note × σ

end Reconciler
