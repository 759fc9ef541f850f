import DocQuery.Selector.Error

/-!
# Requests that a store rejects
-/

namespace DocQuery

inductive OptionsError where
  | badCount (option : String) (value : StoreValue)
  | badFieldName (value : StoreValue)
  | badFields (value : StoreValue)
  | badSort (value : StoreValue)
  | unknownOption (option : String)

def OptionsError.message : OptionsError → String
  | .badCount option value => option ++ " must be a non-negative integer, got " ++ value.text
  | .badFieldName value => "field name must be a string, got " ++ value.text
  | .badFields value => "fields must be an array, got " ++ value.text
  | .badSort value => "malformed sort " ++ value.text
  | .unknownOption option => "unknown option " ++ option

inductive StoreError where
  | selector (reason : SelectorError)
  | options (reason : OptionsError)

def StoreError.message : StoreError → String
  | .selector reason => "invalid selector: " ++ reason.message
  | .options reason => "invalid options: " ++ reason.message

end DocQuery
