import ReportRelay.GasPrice
import ReportRelay.Reply

/-!
# Gas price estimators

Where prices come from: a fixed table, an outside source, an estimator whose last answer is served while it
fails, or the first of several that answers. Only an answer changes what an estimator remembers, so an
estimator that fails or crashes is left as it was.
-/

namespace ReportRelay

/-- Outside sources are told apart by number. -/
inductive PriceQuestion
  | quote (source : Nat)
  | log (line : LogLine)

def PriceQuestion.Answer : PriceQuestion → Type
  | quote _ => Reply Prices
  | log _ => Unit

def priceSources : Interface where
  Question := PriceQuestion
  Answer := PriceQuestion.Answer

inductive Estimator
  | fixed (prices : Prices)
  | source (number : Nat)
  | caching (inner : Estimator) (last : Option Prices)
  | must (estimators : List Estimator)

namespace Estimator

def quote (source : Nat) : Dialogue priceSources (Except Error Prices) :=
  (Dialogue.question (S := priceSources) (.quote source)).bind Reply.receive

def warn (text : String) : Dialogue priceSources Unit :=
  Dialogue.question (S := priceSources) (.log (.warn text))

mutual

/-- The prices of an estimator, and what it has become by answering. -/
def prices : Estimator → Dialogue priceSources (Except Error (Prices × Estimator))
  | fixed prices => return .ok (prices, fixed prices)
  | source number => do
    match ← quote number with
    | .ok prices => return .ok (prices, source number)
    | .error e => return .error e
  | caching inner last => do
    match ← inner.prices with
    | .ok (prices, inner) => return .ok (prices, caching inner (some prices))
    | .error e =>
      match last with
      | some cached => do
        warn s!"Failed to get gas prices, using cached prices: {e.message}"
        return .ok (cached, caching inner last)
      | none =>
        return .error (.gasPrice
          s!"unable to get gas prices and cache is empty: {e.message}")
  | must estimators => do
    let (prices, estimators) ← firstPrices 0 [] estimators
    return .ok (prices, must estimators)

/-- The prices of the first estimator that has any. Crashes when none has. -/
def firstPrices (index : Nat) (failures : List String) :
    List Estimator → Dialogue priceSources (Prices × List Estimator)
  | [] =>
    let texts := "; ".intercalate failures
    .crash (.text s!"no estimator succeeded errs {texts}")
  | estimator :: rest => do
    match ← estimator.prices with
    | .ok (prices, estimator) => return (prices, estimator :: rest)
    | .error e => do
      warn s!"Error using gas price estimator {index}, trying next one: {e.message}"
      let (prices, rest) ← firstPrices (index + 1) (failures ++ [e.message]) rest
      return (prices, estimator :: rest)

end

/-- The primary estimator, remembered across its failures, before a fixed price. -/
def withFallback (primary : Option Estimator) (fallback : DecCoin) : Estimator :=
  must ((primary.map (caching · none)).toList ++ [fixed (.single fallback)])

end Estimator

end ReportRelay
