import WholeBody.Controller.Basic

/-!
# Log lines

The wording of what a controller logs. Times have four places.
-/

namespace WholeBody.LogEvent

def level : LogEvent Float → String
  | configured .. => "INFO"
  | solved .. => "DEBUG"
  | skipped .. => "WARN"
  | fellBack .. => "WARN"

def text : LogEvent Float → String
  | configured nv nu objectives phases =>
    s!"OSC configured: nv={nv}, nu={nu}, {objectives} objectives, contacts in {phases} phases"
  | solved time phase columns rows objectives contacts =>
    let clock := Decimal.fixed 4 time
    s!"t={clock} phase={phase.name} QP {columns} vars x {rows} rows "
      ++ s!"({objectives} objectives, {contacts} contacts)"
  | skipped time fault =>
    let clock := Decimal.fixed 4 time
    s!"t={clock}: skipping tick, {fault.message}"
  | fellBack time fault policy =>
    let clock := Decimal.fixed 4 time
    s!"t={clock}: {fault.message}, falling back to {policy.name}"

end WholeBody.LogEvent
