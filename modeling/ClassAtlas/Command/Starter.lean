/-!
# The starter document

The settings and rule definitions that a new project starts from.
-/

namespace ClassAtlas.Command

/-- The lines of the starter document. -/
def starterLines : List String :=
  ["# arch-graph configuration",
   "",
   "# Fail the check at this severity or above: \"error\", \"warning\" or \"info\"",
   "fail_on = \"error\"",
   "",
   "[import]",
   "# Class directories, jars or class files to check",
   "classpath = [\"build/classes/java/main\"]",
   "",
   "# Searched for supertypes and access owners outside the classpath",
   "# dependencies = [\"libs/framework.jar\"]",
   "",
   "# Glob patterns to exclude from the import",
   "exclude = [",
   "    \"**/generated/**\",",
   "]",
   "",
   "# checksums = true",
   "# resolve_missing_dependencies = true",
   "# parallelism = 4",
   "",
   "# Layers: packages use `..` for any number of packages and `*` for one",
   "[[layers]]",
   "name = \"web\"",
   "packages = [\"com.example..web..\"]",
   "",
   "[[layers]]",
   "name = \"service\"",
   "packages = [\"com.example..service..\"]",
   "",
   "[[layers]]",
   "name = \"domain\"",
   "packages = [\"com.example..domain..\"]",
   "",
   "# Allowed dependencies between layers",
   "[dependencies]",
   "web = [\"service\", \"domain\"]",
   "service = [\"domain\"]",
   "domain = []",
   "",
   "# Forbidden package dependencies",
   "[[deny-package-dep]]",
   "from = \"com.example..domain..\"",
   "to = [\"java.sql..\", \"javax.persistence..\"]",
   "message = \"The domain must not depend on persistence APIs\"",
   "",
   "# Cycles between slices named by the single `(*)` capture",
   "[[cycles]]",
   "slices = \"com.example.(*)..\"",
   "",
   "# Rule overrides",
   "# [rules.package-cycle]",
   "# severity = \"warning\"",
   "# enabled = true"]

/-- The starter document. -/
def starterDocument : String := String.join (starterLines.map fun text => text ++ "\n")

/-- What is printed after the starter document was written. -/
def starterHints : String :=
  String.join ([
    "Created arch-graph.toml",
    "\nNext steps:",
    "  1. Point [import].classpath at your compiled classes",
    "  2. Edit the layers and rules to match your packages",
    "  3. Run: arch-graph check"].map fun text => text ++ "\n")

end ClassAtlas.Command
