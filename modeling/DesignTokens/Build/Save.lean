import DesignTokens.Files.Access
import DesignTokens.Target.ConstantUnit.Source
import DesignTokens.Target.NameModule

/-!
# Saving single outputs

An output of a tree can be saved on its own. Nothing is written when the output cannot be made, and
a refused request is the error itself.
-/

namespace DesignTokens

namespace Files

variable {m : Type → Type} [Monad m]

/-- Save a text at a path. -/
def saveText (files : Files m) (path : Path) (text : Outcome String) : Job m Path := do
  let text ← Job.ofOutcome text
  files.writeOutput path text .file
  return path

/-- Save the two modules of token names of a tree, under a title, in a folder. -/
def saveNames (files : Files m) (title : String) (folder : Path) (g : Group) :
    Job m (List Path) := do
  let names ← Job.ofOutcome g.tokenNames
  let modules : NameModule := { title, names }
  let script ← files.saveText (folder.join "index.js") (.done modules.script)
  let declarations ← files.saveText (folder.join "index.d.ts") (.done modules.declarations)
  return [script, declarations]

/-- Save the unit of constants of a tree, and report the number of its constants and its classes.
The report is made from a walk of its own. -/
def saveConstants (files : Files m) (config : UnitConfig) (now : Moment) (path : Path)
    (g : Group) : Job m Path := do
  let written ← files.saveText path do
    let unit ← g.constantUnit config now
    return unit.render
  let constants ← Job.ofOutcome (g.constants config.scope)
  let classes ← Job.ofOutcome (.ofExcept (ConstantClass.group config.className constants))
  Job.note (.constantsGenerated constants.length (classes.map ConstantClass.name))
  return written

end Files

end DesignTokens
