import BoolSearch.Locale
import BoolSearch.Text.Decimal

namespace BoolSearch

inductive ViolationKind
  | valueExpected
  | unterminatedQuote
  | keyExpected
  | equalsExpected
  | unexpectedEnd
  | missingClosingParen
  | mixedExpressionTypes
  | missingConnective
  | duplicateConnective
  | expressionExpectedAfterConnective
  | trailingCharacters
  | unbalancedParens
  | malformedExpression
  deriving DecidableEq, Repr

namespace ViolationKind

def all : List ViolationKind :=
  [valueExpected, unterminatedQuote, keyExpected, equalsExpected, unexpectedEnd,
   missingClosingParen, mixedExpressionTypes, missingConnective, duplicateConnective,
   expressionExpectedAfterConnective, trailingCharacters, unbalancedParens, malformedExpression]

theorem mem_all (kind : ViolationKind) : kind ∈ all := by
  cases kind <;> decide

def name : ViolationKind → String
  | valueExpected                     => "ValueExpected"
  | unterminatedQuote                 => "UnterminatedQuote"
  | keyExpected                       => "KeyExpected"
  | equalsExpected                    => "EqualsExpected"
  | unexpectedEnd                     => "UnexpectedEnd"
  | missingClosingParen               => "MissingClosingParen"
  | mixedExpressionTypes              => "MixedExpressionTypes"
  | missingConnective                 => "MissingConnective"
  | duplicateConnective               => "DuplicateConnective"
  | expressionExpectedAfterConnective => "ExpressionExpectedAfterConnective"
  | trailingCharacters                => "TrailingCharacters"
  | unbalancedParens                  => "UnbalancedParens"
  | malformedExpression               => "MalformedExpression"

def english : ViolationKind → String
  | valueExpected                     => "Value expected"
  | unterminatedQuote                 => "Unterminated quote"
  | keyExpected                       => "Key expected before '='"
  | equalsExpected                    => "'=' expected after key"
  | unexpectedEnd                     => "Unexpected end of expression"
  | missingClosingParen               => "Missing closing parenthesis"
  | mixedExpressionTypes              => "Keyed and plain expressions cannot be mixed"
  | missingConnective                 => "Missing AND/OR between operands"
  | duplicateConnective               => "Duplicate connective"
  | expressionExpectedAfterConnective => "Expression expected after connective"
  | trailingCharacters                => "Unexpected characters at end of expression"
  | unbalancedParens                  => "Unbalanced parentheses"
  | malformedExpression               => "Malformed expression"

def russian : ViolationKind → String
  | valueExpected                     => "Ожидается значение после оператора"
  | unterminatedQuote                 => "Незакрытая кавычка"
  | keyExpected                       => "Ожидается ключ перед оператором ="
  | equalsExpected                    => "Ожидается оператор = после ключа"
  | unexpectedEnd                     => "Неожиданный конец выражения"
  | missingClosingParen               => "Отсутствует закрывающая скобка"
  | mixedExpressionTypes              => "Смешение типов логических выражений"
  | missingConnective                 => "Отсутствует логическая связка"
  | duplicateConnective               => "Повторяющаяся логическая связка"
  | expressionExpectedAfterConnective => "Выражение после связки отсутствует"
  | trailingCharacters                => "Неожиданные символы в конце"
  | unbalancedParens                  => "Неверное количество скобок"
  | malformedExpression               => "Некорректное выражение"

def message (kind : ViolationKind) : Locale → String
  | .en => kind.english
  | .ru => kind.russian

end ViolationKind

-- The first violation in a text, at a byte of that text.
structure Violation where
  kind : ViolationKind
  offset : Nat
  deriving DecidableEq, Repr

def Violation.describe (violation : Violation) : List Char :=
  (violation.kind.message .en).toList ++ " at offset ".toList ++ decimal violation.offset

end BoolSearch
