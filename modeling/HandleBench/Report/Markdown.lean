import HandleBench.Decimal.Layout
import HandleBench.Report

/-!
# Reports for people

A report as a Markdown text: a heading with the outcome, a table of facts, a table of the workload's
parameters if there are any, a table of times in milliseconds with three places, and the outcome of
the comparison.
-/

namespace HandleBench.Report

/-- A time in milliseconds. -/
def timeText (x : Binary64) : String := Decimal.writeFixed 3 x ++ " ms"

/-- A time in milliseconds that may not be known. -/
def timeTextOr (x : Option Binary64) : String := (x.map timeText).getD "-"

/-- The lines of the heading and the facts. -/
def factLines (r : Report) : List String := [
  "## " ++ (if r.verification.passed then "✅" else "❌") ++ s!" {r.workload} ({r.category})",
  "",
  "| | |",
  "|---|---|",
  "| **Backend** | `" ++ r.backendName ++ "` " ++ r.backendVersion.getD "-" ++ " |",
  s!"| **Scheme / Security** | {r.scheme} / {r.security} |",
  s!"| **Generated** | {r.timestamp} |",
  ""]

/-- The lines of the parameters; none without parameters. -/
def paramLines (r : Report) : List String :=
  if r.params.rows.isEmpty then []
  else
    ["| Parameter | Value |", "|-----------|-------|"] ++
      r.params.rows.map (fun row => s!"| {row.1} | {row.2} |") ++ [""]

/-- The lines of the times. -/
def timeLines (r : Report) : List String :=
  let t := r.timing
  ["| operate | mean | median | min | max | p95 |",
    "|---------|------|--------|-----|-----|-----|",
    s!"| {t.iterations} iters | {timeText t.mean} | {timeTextOr t.median} | {timeText t.least} | "
      ++ s!"{timeText t.greatest} | {timeTextOr t.percentile95} |",
    ""]

/-- The line of the comparison. -/
def verificationLine (r : Report) : String :=
  s!"Verification: {r.verification.samples} result sample(s), max abs error "
    ++ Decimal.Layout.scientific.writeAny r.verification.maxError

/-- The report as a Markdown text; every line of it ends. -/
def markdown (r : Report) : String :=
  String.join ((r.factLines ++ r.paramLines ++ r.timeLines ++ [r.verificationLine]).map (· ++ "\n"))

end HandleBench.Report
