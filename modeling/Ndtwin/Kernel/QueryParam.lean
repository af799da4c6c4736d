import Mathlib.Data.List.Basic

/-!
# Parameters of a request target

The two parsers that read a parameter off the target of an HTTP request:
`utils::queryParam`, which every handler of `HttpSession` uses, and
`DeviceConfigurationAndPowerManager::parseIpParam`, which the power state query uses. A
string is the list of its characters; none of the three separators needs decoding.
-/

namespace Ndtwin.Kernel

namespace Utils

/-- `substr(0, find(c))`: the whole text when `c` is not in it. -/
def upTo (c : Char) (text : List Char) : List Char := text.takeWhile (· != c)

/-- The loop of `queryParam` over what remains of the target. `'='` and `'&'` are looked for
    separately in all of it, so a pair without `'='` is compared with the key together with
    the pair behind it. -/
def queryLoop (key target : List Char) : List Char :=
  if target = [] then []
  else
    match target.idxOf? '=' with
    | none => []
    | some keyEnd =>
      if target.take keyEnd = key then upTo '&' (target.drop (keyEnd + 1))
      else
        match target.idxOf? '&' with
        | none => []
        | some ampPos => queryLoop key (target.drop (ampPos + 1))
termination_by target.length
decreasing_by
  have : target.length ≠ 0 := fun h => ‹target ≠ []› (List.eq_nil_of_length_eq_zero h)
  simp only [List.length_drop]
  omega

/-- `queryParam`: the value of a parameter, `""` when it is absent. -/
def queryParam (target key : String) : String :=
  match target.toList.idxOf? '?' with
  | none => ""
  | some qpos => String.ofList (queryLoop key.toList (target.toList.drop (qpos + 1)))

end Utils

namespace DeviceConfigurationAndPowerManager

/-- `parseIpParam`: what follows the first `ip=` after the first `'?'`, up to `'&'`. -/
def parseIpParam (target : String) : String :=
  match target.toList.idxOf? '?' with
  | none => ""
  | some qpos =>
    match (target.toList.drop (qpos + 1)).dropInfix? "ip=".toList with
    | none => ""
    | some (_, val) => String.ofList (Utils.upTo '&' val)

example : parseIpParam "/ndt/get_switches_power_state?ip=10.0.0.1&k=1" = "10.0.0.1" := by decide

end DeviceConfigurationAndPowerManager

end Ndtwin.Kernel
