/-
# OpsAssist.Agent.Service -- what the assistant says about a tool result

Tool results are rendered from the real data, never summarized by a model, and each
field is read defensively.
-/
import OpsAssist.Tools.Registry

namespace OpsAssist

set_option autoImplicit false

open Theory

/-- `data.get(key)` -/
def getMember (key : String) : Value → Value
  | .obj members => (members.lookup key).getD .null
  | _ => .null

/-- `str(value)`; no handler puts an array or an object where a text is made of one. -/
def strOf : Value → String
  | .null => "None"
  | .bool true => "True"
  | .bool false => "False"
  | .num n => String.ofList n.text
  | .str s => s
  | .arr items => (Json.arr items).dumps
  | .obj members => (Json.obj members).dumps

/-- The text of a field of a tool's data. -/
def shown (key : String) (data : Value) : String := strOf (getMember key data)

def hasMember (key : String) : Value → Bool
  | .obj members => (members.lookup key).isSome
  | _ => false

def items : Value → List Value
  | .arr values => values
  | _ => []

/-- Tool results are rendered from the real data. -/
def describeToolResult (tool : String) (data : Value) : String :=
  match tool with
  | "get_server_status" =>
      let parts :=
        [shown "server_id" data ++ " (" ++ shown "environment" data ++ ", owned by " ++
            shown "owner_department" data ++ ") is " ++ shown "status" data ++ ".",
          "Last checked " ++ shown "last_check" data ++ ".",
          if hasMember "cpu_pct" data then
            if getMember "cpu_pct" data matches .null then
              "CPU and memory are not reported for this server."
            else
              "CPU " ++ shown "cpu_pct" data ++ "%, memory " ++ shown "memory_pct" data ++ "%."
          else if hasMember "utilisation" data then shown "utilisation" data
          else ""]
      String.intercalate " " (parts.filter fun p => p != "")
  | "create_support_ticket" =>
      let named :=
        if truthy (getMember "title" data) then " \"" ++ shown "title" data ++ "\"" else ""
      if truthy (getMember "duplicate" data) then
        "Ticket " ++ shown "ticket_id" data ++ named ++
          " already covers this; it was not created twice."
      else
        let suffix :=
          if truthy (getMember "severity" data) then " with severity " ++ shown "severity" data
          else ""
        "Ticket " ++ shown "ticket_id" data ++ named ++ " is open" ++ suffix ++ "." ++
          if truthy (getMember "details" data) then
            " Details as recorded: " ++ shown "details" data
          else ""
  | "get_support_ticket" =>
      shown "ticket_id" data ++ " \u2014 " ++ shown "title" data ++ " (" ++ shown "severity" data ++
        ", " ++ shown "status" data ++ "), raised by " ++ shown "raised_by" data ++ " on " ++
        String.ofList ((shown "raised_at" data).toList.take 10) ++ ".\nDetails as recorded: " ++
        shown "details" data
  | "create_vpn_profile" =>
      "VPN profile " ++ shown "profile_id" data ++ " created for " ++ shown "employee_id" data ++
        ", valid until " ++ shown "expires_at" data ++ "."
  | "search_internal_docs" =>
      if truthy (getMember "count" data) then
        "I found " ++ shown "count" data ++ " passage(s): " ++
          String.intercalate ", " ((items (getMember "hits" data)).map (shown "ref")) ++ "."
      else "I found nothing on that in the documents you may read."
  | _ => "Done."

end OpsAssist
