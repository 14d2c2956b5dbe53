import ReportRelay.GasPrice
import ReportRelay.Json.Record
import ReportRelay.Json.Text

/-!
# Prices in JSON

A price is written with its amount as text, and read with its amount as a text or a number.
-/

namespace ReportRelay.DecCoin

open Json Json.Reader

structure Fields where
  denom : Option String
  amount : Option Decimal

def fields : List (Reader.Field Fields) :=
  [.of "denom" Fields.denom (fun v s => { s with denom := some v }) Reader.text,
   .of "amount" Fields.amount (fun v s => { s with amount := some v }) decimal]

def reader : Reader DecCoin := do
  let read ← record fields ⟨none, none⟩
  return ⟨← required read.denom, ← required read.amount⟩

def json (coin : DecCoin) : String :=
  object [("denom", quoted coin.denom), ("amount", quoted coin.amount.text)]

end ReportRelay.DecCoin
