import AssetCatalog.Skeleton.Name

/-! The files with which an asset starts, as lists of lines. -/

namespace AssetCatalog.Skeleton

structure Draft where
  type : String
  category : String := ""
  name : String
deriving DecidableEq, Repr, Inhabited

variable (t : Draft)

namespace Draft

def title : String := Text.titleCase (Text.replace "_" " " t.name)

def dashed : String := Text.replace "_" "-" t.name

def className : String := Text.replace "_" "" (Text.titleCase t.name)

def moduleName : String := if t.type = "component" then "component" else "pipeline"

def tags : List String :=
  Text.replace "_" "-" t.category :: (if t.type = "pipeline" then ["pipeline"] else [])

end Draft

def ofLines (ls : List String) : String := String.join (ls.map (· ++ "\n"))

def packageLines : List String :=
  [ s!"from .{t.moduleName} import {t.name}",
    "",
    s!"__all__ = [\"{t.name}\"]" ]

def testPackageLines : List String := [s!"# Test package for {t.type} tests"]

def componentLines : List String :=
  [ "from kfp import dsl",
    "",
    "",
    "@dsl.component(",
    "    base_image=\"python:3.11\",",
    "    # packages_to_install=[\"numpy\", \"pandas\"],  # Add your dependencies here",
    ")",
    s!"def {t.name}(",
    "    # Add your component parameters here",
    "    input_param: str,",
    "    # Add your output artifacts here",
    "    # output_artifact: dsl.Output[dsl.Artifact]",
    ") -> str:  # Specify your return type",
    s!"    \"\"\"{t.title} component.",
    "",
    "    TODO: Add a detailed description of what this component does.",
    "",
    "    Args:",
    "        input_param: Description of the component parameter.",
    "        # Add descriptions for other parameters",
    "",
    "    Returns:",
    "        Description of what the component returns.",
    "    \"\"\"",
    "    # TODO: Implement your component logic here",
    "",
    "",
    "if __name__ == \"__main__\":",
    "    from kfp.compiler import Compiler",
    "",
    "    Compiler().compile(",
    s!"        {t.name},",
    "        package_path=__file__.replace(\".py\", \"_component.yaml\"),",
    "    )" ]

def pipelineLines : List String :=
  [ "from kfp import dsl",
    "",
    "",
    "@dsl.pipeline(",
    s!"    name=\"{t.dashed}\",",
    "    description=\"TODO: Add a brief description of this pipeline\",",
    ")",
    s!"def {t.name}(",
    "    # Add your pipeline parameters here",
    "    input_param: str = \"default_value\",",
    "):",
    "    \"\"\"TODO: Add pipeline description.",
    "",
    "    TODO: Add a detailed description of what this pipeline does.",
    "",
    "    Args:",
    "        input_param: Description of the pipeline parameter.",
    "",
    "    Returns:",
    "        Pipeline outputs or None if no outputs are needed.",
    "    \"\"\"",
    "    # TODO: Implement your pipeline logic here",
    "",
    "",
    "if __name__ == \"__main__\":",
    "    from kfp.compiler import Compiler",
    "",
    "    Compiler().compile(",
    s!"        {t.name},",
    "        package_path=__file__.replace(\".py\", \"_pipeline.yaml\"),",
    "    )" ]

def moduleLines? : Option (List String) :=
  if t.type = "component" then some (componentLines t)
  else if t.type = "pipeline" then some (pipelineLines t)
  else none

def stamp (now : Moment) : String :=
  let two (n : Nat) : String := zeroPadded 2 n
  toString now.date.year ++ "-" ++ two now.date.month ++ "-" ++ two now.date.day ++ "T" ++
    two now.hour ++ ":" ++ two now.minute ++ ":" ++ two now.second ++ "Z"

def metadataLines (now : Moment) : List String :=
  [ "---",
    s!"name: {t.name}",
    s!"stability: alpha  # New {t.type} without proven track record",
    "dependencies:",
    "  kubeflow:",
    "    - name: Pipelines",
    "      version: '>=2.15.2'",
    s!"  # external_services:  # Add if {t.type} uses external services",
    "  #   - name: Example Service",
    "  #     version: \">=1.0.0\"",
    "tags:" ] ++ t.tags.map (fun tag => s!"  - {tag}") ++
  [ "  # Add more relevant tags here",
    "lastVerified: " ++ stamp now,
    "# links:  # Add relevant links",
    "#   documentation: https://your-docs-url.com",
    "#   issue_tracker: https://github.com/kubeflow/pipelines-components/issues",
    "" ]

def ownerLines : List String :=
  [ "approvers:",
    "  # TODO: Add your GitHub username here (must be a Kubeflow community member)",
    "  # - your-github-username",
    "reviewers:",
    "  # TODO: Add reviewers' GitHub usernames here",
    "  # - reviewer1",
    "  # - reviewer2" ]

def pageLines : List String :=
  [ s!"# {t.title}", "", "## Overview", "", s!"TODO: Add description of this {t.type}.", "", "## Usage",
    "", "TODO: Add usage examples." ]

def unitTestLines : List String :=
  [ s!"\"\"\"Tests for the {t.name} {t.type}.\"\"\"",
    "",
    s!"from ..{t.type} import {t.name}",
    "",
    "",
    s!"class Test{t.className}UnitTests:",
    s!"    \"\"\"Unit tests for {t.type} logic.\"\"\"",
    "",
    s!"    def test_{t.type}_function_exists(self):",
    s!"        \"\"\"Test that the {t.type} function is properly imported.\"\"\"",
    s!"        assert callable({t.name})",
    s!"        assert hasattr({t.name}, \"python_func\")",
    "",
    s!"    def test_{t.type}_with_default_parameters(self):",
    s!"        \"\"\"Test {t.type} with valid input parameters.\"\"\"",
    s!"        # TODO: Implement unit tests for your {t.type}",
    "",
    "        # Example test structure:",
    s!"        result = {t.name}.python_func(input_param=\"test_value\")",
    "        assert isinstance(result, str)",
    "        assert \"test_value\" in result",
    "",
    "    # TODO: Add more comprehensive unit tests",
    "    # from unittest import mock",
    "    # @mock.patch(\"external_library.some_function\")",
    s!"    # def test_{t.type}_with_mocked_dependencies(self, mock_function):",
    s!"    #     \"\"\"Test {t.type} behavior with mocked external calls.\"\"\"",
    "    #     pass" ]

def localTestLines : List String :=
  [ s!"\"\"\"Local runner tests for the {t.name} {t.type}.\"\"\"",
    "",
    s!"from ..{t.type} import {t.name}",
    "",
    "",
    s!"class Test{t.className}LocalRunner:",
    s!"    \"\"\"Test {t.type} with LocalRunner (subprocess execution).\"\"\"",
    "",
    "    def test_local_execution(self, setup_and_teardown_subprocess_runner):  # noqa: F811",
    s!"        \"\"\"Test {t.type} execution with LocalRunner.\"\"\"",
    s!"        # TODO: Implement local runner tests for your {t.type}",
    "",
    "        # Example test structure:",
    s!"        result = {t.name}(input_param=\"test_value\")",
    "",
    "        # Add assertions about expected outputs if needed",
    "        assert result is not None" ]

def subcategoryPageLines (subcategory : String) : List String :=
  [ "# " ++ Text.titleCase (Text.replace "_" " " subcategory), "",
    "This subcategory contains related assets.", "", "## Overview", "",
    "TODO: Add description of what this subcategory contains.", "", "## Assets", "",
    "TODO: List components/pipelines in this subcategory.", "", "## Shared Utilities", "",
    "If this subcategory has a `shared/` directory, document the shared utilities here." ]

abbrev NamedText := String × String

def coreFiles (now : Moment) : Except Fault (List NamedText) :=
  match moduleLines? t with
  | none => throw .noTemplate
  | some lines =>
    pure [ ("__init__.py", ofLines (packageLines t)), (t.type ++ ".py", ofLines lines),
      ("metadata.yaml", ofLines (metadataLines t now)), ("OWNERS", ofLines ownerLines),
      ("README.md", ofLines (pageLines t)) ]

def testFiles : List NamedText :=
  [ ("__init__.py", ofLines (testPackageLines t)),
    (s!"test_{t.type}_unit.py", ofLines (unitTestLines t)),
    (s!"test_{t.type}_local.py", ofLines (localTestLines t)) ]

def subcategoryFiles (subcategory : String) : List NamedText :=
  [("OWNERS", ofLines ownerLines), ("README.md", ofLines (subcategoryPageLines subcategory))]

end AssetCatalog.Skeleton
