import VpnControl.Backend.Ipaddress
import Mathlib.Data.Rat.Defs

namespace VpnControl.Backend.Config
open Strings Ipaddress

/-- The settings that are checked, from the environment. -/
structure Settings where
  appEnv : Text
  agentMode : Text
  encryptionKey : Option Text
  setupRunner : Text
  setupAgentBaseUrlTemplate : Text
  setupAgentAllowIps : List Text
  setupTimeoutSeconds : Rat
  setupAllowPublicAgentAccess : Bool
  deriving DecidableEq

inductive ValueError where
  | text (message : String)
  | invalidAllowIp (value : Text)
  deriving DecidableEq, Repr

def ValueError.message : ValueError → Text
  | text message => lit message
  | invalidAllowIp value => lit "SETUP_AGENT_ALLOW_IPS contains invalid IP/CIDR: " ++ value

namespace Settings

/-- The loop over the allowed addresses. -/
def normalizeAllowIps (s : Settings) : List Text → Except ValueError (List Text)
  | [] => .ok []
  | value :: values =>
    match ipNetwork value with
    | none => .error (.invalidAllowIp value)
    | some network =>
      if s.appEnv ≠ lit "local" ∧ network.prefixlen = 0 ∧ ¬s.setupAllowPublicAgentAccess then
        .error (.text ("SETUP_AGENT_ALLOW_IPS must not allow the internet; set " ++
          "SETUP_ALLOW_PUBLIC_AGENT_ACCESS=true only after an explicit risk review"))
      else (s.normalizeAllowIps values).map (network.str :: ·)

/-- The settings with the addresses normalized; `fernetKey` accepts the keys that make a
`FernetSecretBox`. -/
def validate (fernetKey : Text → Bool) (s : Settings) : Except ValueError Settings := do
  if ¬(s.agentMode = lit "fake" ∨ s.agentMode = lit "http") then
    throw (.text "AGENT_MODE must be fake or http")
  if ¬(s.setupRunner = lit "stub" ∨ s.setupRunner = lit "deploy_script") then
    throw (.text "SETUP_RUNNER must be stub or deploy_script")
  if s.setupTimeoutSeconds ≤ 0 then throw (.text "SETUP_TIMEOUT_SECONDS must be positive")
  if ¬lit "\x7bhost\x7d" <:+: s.setupAgentBaseUrlTemplate then
    throw (.text "SETUP_AGENT_BASE_URL_TEMPLATE must contain \x7bhost\x7d")
  let normalizedAllowIps ← s.normalizeAllowIps s.setupAgentAllowIps
  let s := { s with setupAgentAllowIps := normalizedAllowIps }
  if s.appEnv = lit "local" then return s
  if s.agentMode ≠ lit "http" then
    throw (.text "AGENT_MODE=http is required outside APP_ENV=local")
  match s.encryptionKey with
  | none | some [] => throw (.text "ENCRYPTION_KEY is required outside APP_ENV=local")
  | some key => if ¬fernetKey key then throw (.text "ENCRYPTION_KEY must be a valid Fernet key")
  if s.setupRunner ≠ lit "deploy_script" then
    throw (.text "SETUP_RUNNER=deploy_script is required outside APP_ENV=local")
  if s.setupAgentAllowIps = [] then
    throw (.text "SETUP_AGENT_ALLOW_IPS is required outside APP_ENV=local")
  return s

end Settings
end VpnControl.Backend.Config
