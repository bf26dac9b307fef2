import Intake.Text.LetterCase

/-!
# Model providers

Where models run and how they are reached. The environment chooses the
provider; a name that is not known is kept and treated like the gateway,
but has no fallback model.

* `Provider.ofEnvironment` chooses; `Provider.qualify` names a model.
* `Router.build` collects what a router is told about a model.
-/

namespace Intake

/-- Values by name, the first entry of a name counts. -/
abbrev Environment := List (String × String)

/-- The value of a variable. -/
def Environment.get? (env : Environment) (name : String) : Option String := env.lookup name

/-- Where models run. -/
inductive Provider where
  | gateway
  | azure
  | ollama
  | unknown (name : String)
  deriving DecidableEq, Repr

namespace Provider

/-- The name of a provider. -/
def name : Provider → String
  | gateway => "openrouter"
  | azure => "azure"
  | ollama => "ollama"
  | unknown name => name

/-- The provider of a name. -/
def ofName (name : String) : Provider :=
  if name == "openrouter" then gateway
  else if name == "azure" then azure
  else if name == "ollama" then ollama
  else unknown name

/-- The provider that an environment chooses. -/
def ofEnvironment (env : Environment) : Provider :=
  match env.get? "LLM_PROVIDER" with
  | some name => ofName name
  | none => gateway

/-- The variable that holds the key of a provider, empty when it needs none. -/
def keyVariable : Provider → String
  | azure => "AZURE_API_KEY"
  | ollama => ""
  | _ => "OPENROUTER_API_KEY"

/-- The variable that names the deployment of a model. -/
def deploymentVariable (model : String) : String :=
  "AZURE_DEPLOYMENT_" ++ String.ofList ((Text.capitals model).toList.map fun c =>
    if c == '-' || c == '.' then '_' else c)

/-- A model's name with its provider in front. -/
def qualify (env : Environment) (p : Provider) (model : String) : String :=
  match p with
  | azure => "azure/" ++ (env.get? (deploymentVariable model)).getD model
  | ollama => "ollama/" ++ model
  | _ => "openrouter/openai/" ++ model

/-- The small and fast model that reads documents by default. -/
def defaultModel (env : Environment) (p : Provider) : String :=
  p.qualify env (match p with
    | ollama => "qwen3:0.6b"
    | _ => "gpt-4o-mini")

/-- The connection parameters of a provider. -/
def connection (env : Environment) : Provider → List (String × String)
  | azure =>
    [("api_key", (env.get? "AZURE_API_KEY").getD ""),
     ("api_base", (env.get? "AZURE_API_BASE").getD ""),
     ("api_version", (env.get? "AZURE_API_VERSION").getD "2024-02-15-preview")]
  | ollama => [("api_base", (env.get? "OLLAMA_API_BASE").getD "http://localhost:11434")]
  | p => [("api_key", "os.environ/" ++ p.keyVariable)]

end Provider

/-- How one model is reached. -/
structure Deployment where
  model : String
  parameters : List (String × String)
  deriving DecidableEq, Repr

/-- What a router is told about a model. -/
structure Router where
  deployments : List Deployment
  retries : Nat := 2
  retryAfter : Nat := 4
  cooldown : Nat := 60
  allowedFails : Nat := 2
  /-- A model and the models that stand in for it. -/
  fallbacks : List (String × List String)
  deriving DecidableEq, Repr

namespace Router

/-- The model that stands in for the default one. -/
def fallbackModel : String := "openrouter/openai/gpt-4o"

/-- The router of a model. Only the gateway's default model has a fallback. -/
def build (env : Environment) (p : Provider) (model : String) : Router :=
  let stands := p == .gateway && model == p.defaultModel env
  { deployments := (if stands then [model, fallbackModel] else [model]).map fun m =>
      ⟨m, p.connection env⟩
    fallbacks := if stands then [(model, [fallbackModel])] else [] }

end Router
end Intake
