import Provenance.Schema.Table

/-! The draft schema of provenance crates, with parameter connections. -/

namespace Provenance.Schema

def thingRule : Rule :=
  { allowed := ["name", "description", "additionalType", "alternateName", "identifier", "url"]
    references := ["identifier", "url"] }

def creativeWorkRule : Rule :=
  { allowed := ["about", "conformsTo", "version"], references := ["about", "conformsTo"] }

def datasetRule : Rule :=
  { required := ["conformsTo", "hasPart", "mainEntity"], allowed := ["mentions"]
    references := ["conformsTo", "hasPart", "mainEntity", "mentions"] }

def workflowRule : Rule :=
  { required := ["input", "output", "programmingLanguage"], allowed := ["hasPart", "connection"]
    references := ["input", "output", "programmingLanguage", "hasPart", "connection"] }

def organizeActionRule : Rule :=
  { required := ["agent", "instrument", "object", "result", "startTime"]
    references := ["agent", "instrument", "object", "result"] }

def createActionRule : Rule :=
  { required := ["startTime", "endTime", "instrument", "object", "result"]
    allowed := ["environment"], references := ["instrument", "object", "result"] }

def draftRules : List (String × Rule) :=
  [("Thing", thingRule),
    ("CreativeWork", creativeWorkRule),
    ("Dataset", datasetRule),
    ("ComputationalWorkflow", workflowRule),
    ("File", { allowed := ["exampleOfWork"], references := ["exampleOfWork"] }),
    ("SoftwareSourceCode", {}),
    ("HowTo", { required := ["step"], references := ["step"] }),
    ("ComputerLanguage", { allowed := ["version"] }),
    ("FormalParameter", { required := ["name"], allowed := ["encodingFormat", "defaultValue"] }),
    ("HowToStep",
      { required := ["position", "workExample"], allowed := ["connection"]
        references := ["workExample", "connection"] }),
    ("SoftwareApplication", { allowed := ["input", "output"], references := ["input", "output"] }),
    ("ParameterConnection",
      { required := ["sourceParameter", "targetParameter"]
        references := ["sourceParameter", "targetParameter"] }),
    ("Person", {}),
    ("OrganizeAction", organizeActionRule),
    ("CreateAction", createActionRule),
    ("ControlAction",
      { required := ["instrument", "object"], references := ["instrument", "object"] }),
    ("PropertyValue",
      { required := ["value"], allowed := ["exampleOfWork"], references := ["exampleOfWork"] })]

def Table.draft : Table := OrderedMap.ofList draftRules

end Provenance.Schema
